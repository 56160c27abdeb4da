import EcmaScript.Lexical.Escape

/-!
# Outlines of JSON texts

An outline keeps of a JSON text the structure, the names and the booleans, and checks the rest
without keeping it: numbers may have any size, and escapes in strings may be half of a surrogate
pair. A name with such an escape cannot be kept. `Json.Outline.read?` accepts exactly one document
with white space around it.
-/

namespace EcmaScript.Json

/-- The structure of a document. -/
inductive Outline where
  | boolean (value : Bool)
  | array (items : List Outline)
  | object (members : List (Option String × Outline))
  /-- Null, a number or a string. -/
  | other

namespace Outline

/-- The white space that may stand between the parts of a document. -/
def isSpace (char : Char) : Bool :=
  char == ' ' || char == '\t' || char == '\n' || char == '\r'

/-- The text after leading white space. -/
def skipSpace (text : List Char) : List Char :=
  text.dropWhile isSpace

/-- The character that a letter or mark stands for after a backslash. -/
def escapedCharacter? : Char → Option Char
  | '"' => some '"'
  | '\\' => some '\\'
  | '/' => some '/'
  | 'b' => some '\x08'
  | 'f' => some '\x0c'
  | 'n' => some '\n'
  | 'r' => some '\r'
  | 't' => some '\t'
  | _ => none

/-- Reads the rest of a string and its closing quote: the codes of its characters, a surrogate for
each escape of one, and the text after it. -/
def stringCodes? (text : List Char) : Option (List Nat × List Char) :=
  match text with
  | '"' :: rest => some ([], rest)
  | '\\' :: 'u' :: first :: second :: third :: fourth :: rest =>
    match leadingDigits 16 [first, second, third, fourth] with
    | [a, b, c, d] => (stringCodes? rest).map fun (codes, after) =>
      (numberOfDigits 16 [a, b, c, d] :: codes, after)
    | _ => none
  | '\\' :: char :: rest =>
    match escapedCharacter? char with
    | some meant => (stringCodes? rest).map fun (codes, after) => (meant.toNat :: codes, after)
    | none => none
  | char :: rest =>
    if char < ' ' ∨ char = '\\' then none
    else (stringCodes? rest).map fun (codes, after) => (char.toNat :: codes, after)
  | [] => none

/-- The characters of some codes, when every surrogate is in a pair. -/
def characters? : List Nat → Option (List Char)
  | [] => some []
  | [code] => if code.isValidChar then some [Char.ofNat code] else none
  | high :: low :: rest =>
    if Escape.isHighSurrogate high && Escape.isLowSurrogate low then
      (characters? rest).map (Char.ofNat (Escape.joinSurrogates high low) :: ·)
    else if high.isValidChar then (characters? (low :: rest)).map (Char.ofNat high :: ·)
    else none

/-- The text after at least one decimal digit. -/
def afterDigits? (text : List Char) : Option (List Char) :=
  if text.head?.any Char.isDigit then some (text.dropWhile Char.isDigit) else none

/-- The text after the fraction of a number, if it has one. -/
def afterFraction? : List Char → Option (List Char)
  | '.' :: rest => afterDigits? rest
  | text => some text

/-- The text after the exponent of a number, if it has one. -/
def afterExponent? : List Char → Option (List Char)
  | 'e' :: rest | 'E' :: rest =>
    match rest with
    | '+' :: digits | '-' :: digits => afterDigits? digits
    | _ => afterDigits? rest
  | text => some text

/-- The text after a number. Its whole part has no leading zeros. -/
def afterNumber? (text : List Char) : Option (List Char) :=
  let unsigned := match text with
    | '-' :: rest => rest
    | _ => text
  let whole := match unsigned with
    | '0' :: rest => some rest
    | _ => afterDigits? unsigned
  (whole.bind afterFraction?).bind afterExponent?

/-- The text after a given word. -/
def afterWord? (word : String) (text : List Char) : Option (List Char) :=
  if word.toList.isPrefixOf text then some (text.drop word.length) else none

mutual

/-- Reads a value and answers its outline and the text after it. The number bounds how often reading
may go on to a further part. -/
def value? : Nat → List Char → Option (Outline × List Char)
  | 0, _ => none
  | bound + 1, text =>
    match skipSpace text with
    | '"' :: rest => (stringCodes? rest).map fun (_, after) => (.other, after)
    | '[' :: rest =>
      match skipSpace rest with
      | ']' :: after => some (.array [], after)
      | _ => (items? bound rest).map fun (items, after) => (.array items, after)
    | '{' :: rest =>
      match skipSpace rest with
      | '}' :: after => some (.object [], after)
      | _ => (members? bound rest).map fun (members, after) => (.object members, after)
    | 't' :: rest => (afterWord? "rue" rest).map fun after => (.boolean true, after)
    | 'f' :: rest => (afterWord? "alse" rest).map fun after => (.boolean false, after)
    | 'n' :: rest => (afterWord? "ull" rest).map fun after => (.other, after)
    | numeric => (afterNumber? numeric).map fun after => (.other, after)

/-- Reads values with commas between them, up to a closing bracket. -/
def items? : Nat → List Char → Option (List Outline × List Char)
  | 0, _ => none
  | bound + 1, text =>
    (value? bound text).bind fun (item, rest) =>
      match skipSpace rest with
      | ',' :: more => (items? bound more).map fun (items, after) => (item :: items, after)
      | ']' :: after => some ([item], after)
      | _ => none

/-- Reads names and values with commas between them, up to a closing brace. -/
def members? : Nat → List Char → Option (List (Option String × Outline) × List Char)
  | 0, _ => none
  | bound + 1, text =>
    match skipSpace text with
    | '"' :: rest =>
      (stringCodes? rest).bind fun (codes, rest) =>
        let name := (characters? codes).map String.ofList
        match skipSpace rest with
        | ':' :: rest =>
          (value? bound rest).bind fun (value, rest) =>
            match skipSpace rest with
            | ',' :: more =>
              (members? bound more).map fun (members, after) => ((name, value) :: members, after)
            | '}' :: after => some ([(name, value)], after)
            | _ => none
        | _ => none
    | _ => none

end

/-- The outline of a text that is one document. -/
def read? (text : String) : Option Outline :=
  match value? (2 * text.length + 2) text.toList with
  | some (outline, rest) => if (skipSpace rest).isEmpty then some outline else none
  | none => none

/-- The value of an outline that is a boolean. -/
def boolean? : Outline → Option Bool
  | .boolean value => some value
  | _ => none

end Outline

end EcmaScript.Json
