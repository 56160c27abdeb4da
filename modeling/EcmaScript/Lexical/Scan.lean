import EcmaScript.Lexical.Name
import EcmaScript.Lexical.NumericLiteral
import EcmaScript.Lexical.RegularExpression
import EcmaScript.Lexical.StringLiteral
import EcmaScript.Lexical.Trivia
import EcmaScript.Source.Cursor

/-!
# Tokens of a source text

`Scan.token` moves a cursor over the trivia in front of it and the next token. A faulty token leaves
the cursor where reading stopped. `Scan.regularExpression` re-reads the slash that was scanned last
as the beginning of a regular expression, and `tokenize` scans a whole text in which every slash is
an operator.
-/

namespace EcmaScript

/-- An action that moves a cursor over a source text and may find a fault. -/
abbrev Scan := EStateM Fault Cursor

/-- Reads the lexeme at the front of a text without trivia. -/
def Lexeme.read (text : List Char) : Reading (Lexeme × Flags) :=
  match text with
  | [] => .success 0 (.endOfFile, {})
  | char :: rest =>
    if char = '"' ∨ char = '\'' then
      (StringLiteral.read char rest).map fun (value, flags) => (.string value, flags)
    else if NumericLiteral.starts text then
      (NumericLiteral.read text).map fun (value, flags) => (.number value, flags)
    else if char = '\\' ∨ isIdentifierStart char then Name.read text
    else
      match Symbol.leadingMark? text with
      | some mark => .success mark.text.length (.symbol mark, {})
      | none => .failure 1 .unexpectedCharacter 0

theorem Lexeme.length_read_le (text : List Char) : (read text).length ≤ text.length := by
  unfold read
  split
  · simp [Reading.length]
  · rename_i char rest
    split
    · simpa using StringLiteral.length_read_le char rest
    · split
      · simpa using NumericLiteral.length_read_le (char :: rest)
      · split
        · exact Name.length_read_le _
        · split
          · rename_i found
            exact Symbol.length_leadingMark?_le found
          · simp [Reading.length]

/-- The rule for positions in the lexeme at the front of a text. -/
def Lexeme.walk (text : List Char) : Position → List Char → Position :=
  if text.head? = some '"' ∨ text.head? = some '\'' then Position.afterLiteral else Position.after

namespace Scan

/-- Moves over the trivia at the cursor, and answers whether a line ends in it. -/
def trivia : Scan Bool := fun cursor =>
  match Trivia.read cursor.rest with
  | .success length lineBreak => .ok lineBreak (cursor.pass length)
  | .failure length cause place => .error ⟨cause, (cursor.pass place).position⟩ (cursor.pass length)

/-- Moves over the lexeme at the cursor. -/
def lexeme (lineBreak : Bool) : Scan Token := fun cursor =>
  let walk := Lexeme.walk cursor.rest
  match Lexeme.read cursor.rest with
  | .success length (lexeme, flags) =>
    let after := cursor.moveBy walk length
    .ok
      { lexeme
        flags := { flags with lineBreak }
        span := ⟨cursor.position, after.position⟩
        start := cursor.offset
        stop := after.offset
        text := String.ofList (cursor.rest.take length) }
      after
  | .failure length cause place =>
    .error ⟨cause, (cursor.moveBy walk place).position⟩ (cursor.moveBy walk length)

/-- Scans the next token, or the end of the text. -/
def token : Scan Token := do
  let lineBreak ← trivia
  lexeme lineBreak

/-- The operators that may turn out to begin a regular expression, with the beginning of its
pattern. -/
def slash? : Lexeme → Option (List Char)
  | .symbol (.binary .divide) => some []
  | .symbol (.assignment .divideAssign) => some ['=']
  | _ => none

/-- Re-reads a slash, or `/=`, as a regular expression. The slash is the token before the cursor,
and `front` is the part of the pattern in it. -/
def regularExpression (slash : Token) (front : List Char) : Scan Token := fun cursor =>
  match RegularExpression.read front cursor.rest with
  | .success length lexeme =>
    let after := cursor.pass length
    .ok
      { lexeme
        flags := { lineBreak := slash.flags.lineBreak }
        span := ⟨slash.span.start, after.position⟩
        start := slash.start
        stop := after.offset
        text := slash.text ++ String.ofList (cursor.rest.take length) }
      after
  | .failure length cause _ => .error ⟨cause, slash.span.start⟩ (cursor.pass length)

/-- Scans tokens up to the end of the text. The number of tokens is bounded by the first argument;
each token but the last takes a character. -/
def tokens : Nat → Scan (List Token)
  | 0 => return []
  | bound + 1 => do
    let next ← token
    if next.lexeme = .endOfFile then return [next]
    let others ← tokens bound
    return next :: others

end Scan

/-- The tokens of a source text, the end of it last, when every slash is an operator. -/
def tokenize (source : String) : Except Fault (List Token) :=
  match Scan.tokens (source.length + 1) (Cursor.atStart source) with
  | .ok tokens _ => .ok tokens
  | .error fault _ => .error fault

end EcmaScript
