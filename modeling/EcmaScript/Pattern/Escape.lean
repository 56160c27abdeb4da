import EcmaScript.Lexical.Escape
import EcmaScript.Pattern.Fault
import EcmaScript.Unicode.Property

/-!
# Escapes in patterns

The escapes that atoms and classes share: code points, single characters and properties. A reader is
given the text after the characters it was chosen by, and answers how many more it takes. In Unicode
mode every escape must have a meaning; otherwise an escape without one stands for its character.
-/

namespace EcmaScript.Pattern

/-- The number that hexadecimal digits denote, which a plus sign may precede. -/
def hexadecimal? (text : List Char) : Option Nat :=
  let digits := match text with
    | '+' :: rest => rest
    | _ => text
  let values := leadingDigits 16 digits
  if !digits.isEmpty && values.length == digits.length then some (numberOfDigits 16 values)
  else none

/-- The number that the first four characters denote. -/
def fourDigits? (text : List Char) : Option Nat :=
  let front := text.take 4
  if front.length = 4 then hexadecimal? front else none

/-- Reads a code point after `\u`: in braces, or as four digits. Two escapes of four digits that are
a surrogate pair are one code point; after any other high surrogate a following `\u` is taken alone.
-/
def codePoint? (text : List Char) : Option (Nat × Nat) :=
  match text with
  | '{' :: rest =>
    let inside := rest.takeWhile (· != '}')
    if inside.length < rest.length then
      ((hexadecimal? inside).filter (· ≤ 0x10FFFF)).map fun code => (inside.length + 2, code)
    else none
  | _ =>
    (fourDigits? text).map fun high =>
      match EcmaScript.Escape.isHighSurrogate high, text.drop 4 with
      | true, '\\' :: 'u' :: rest =>
        match (fourDigits? rest).filter EcmaScript.Escape.isLowSurrogate with
        | some low => (10, EcmaScript.Escape.joinSurrogates high low)
        | none => (6, high)
      | _, _ => (4, high)

/-- ASCII letters, which may follow `\c`. -/
def controlLetter? (char : Char) : Option Nat :=
  if char.isAlpha then some (char.toNat % 32) else none

/-- Characters with a meaning of their own in patterns, and the slash. -/
def isPatternCharacter (char : Char) : Bool :=
  ['^', '$', '\\', '.', '*', '+', '?', '(', ')', '[', ']', '{', '}', '|', '/'].contains char

/-- The letters of the classes of digits, spaces and word characters. -/
def isClassLetter (char : Char) : Bool :=
  ['d', 'D', 's', 'S', 'w', 'W'].contains char

/-- Reads an escape that stands for one character, after the backslash and the character given. The
answer is the number of characters taken and the code of the character meant. -/
def characterEscape (isUnicode : Bool) (char : Char) (rest : List Char) :
    Except Fault (Nat × Nat) :=
  let plain : Except Fault (Nat × Nat) := .ok (0, char.toNat)
  match char with
  | 'f' => .ok (0, 0x0C)
  | 'n' => .ok (0, 0x0A)
  | 'r' => .ok (0, 0x0D)
  | 't' => .ok (0, 0x09)
  | 'v' => .ok (0, 0x0B)
  | 'c' =>
    match rest.head?.bind controlLetter? with
    | some code => .ok (1, code)
    | none => .error .invalidCharacterEscape
  | 'x' =>
    let front := rest.take 2
    match leadingDigits 16 front with
    | [high, low] => .ok (2, high * 16 + low)
    | _ => if isUnicode then .error .invalidCharacterEscape else .ok (front.length, char.toNat)
  | 'u' =>
    match codePoint? rest with
    | some (length, code) => .ok (length, code)
    | none => if isUnicode then .error .invalidUnicodeEscape else plain
  | _ =>
    if char = '0' ∧ !rest.head?.any Char.isDigit then .ok (0, 0)
    else if !isUnicode && '0' ≤ char && char ≤ '7' then
      let digits := leadingDigits 8 ((char :: rest).take (if char ≤ '3' then 3 else 2))
      .ok (digits.length - 1, numberOfDigits 8 digits)
    else if isUnicode && !isPatternCharacter char then .error .invalidCharacterEscape
    else plain

/-- The characters of property names and values. -/
def isPropertyCharacter (char : Char) : Bool :=
  char.isAlphanum || char == '_'

/-- Reads a property in braces, after the letter that begins the escape, and answers how many
characters it takes. -/
def propertyEscape : List Char → Except Fault Nat
  | '{' :: rest =>
    let name := rest.takeWhile isPropertyCharacter
    match rest.drop name.length with
    | '}' :: _ =>
      if Unicode.isPropertyName (String.ofList name) then .ok (name.length + 2)
      else .error .invalidPropertyName
    | '=' :: more =>
      let value := more.takeWhile isPropertyCharacter
      if (more.drop value.length).head? = some '}' ∧
          Unicode.isPropertyValue (String.ofList name) (String.ofList value) then
        .ok (name.length + value.length + 3)
      else .error .invalidPropertyName
    | _ => .error .invalidPropertyName
  | _ => .error .invalidPropertyStart

end EcmaScript.Pattern
