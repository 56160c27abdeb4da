import EcmaScript.Number.Binary64
import EcmaScript.Source.Position
import EcmaScript.Token.Kind

/-!
# Tokens

A token is a lexeme with the place it was read from, its text and some facts about how it was
written. The lexeme holds what the text means: a name, a number, the value of a string, the two
parts of a regular expression, or a symbol.
-/

namespace EcmaScript

/-- Facts about the way a token is written. -/
structure Flags where
  /-- A line ends between the previous token and this one. -/
  lineBreak : Bool := false
  /-- An identifier or a string has an escape `\u`. -/
  unicodeEscape : Bool := false
  /-- One of these escapes has braces. -/
  bracedEscape : Bool := false
  /-- A number has an exponent. -/
  exponent : Bool := false
  /-- A string has an octal escape. -/
  octalEscape : Bool := false
  hexadecimal : Bool := false
  binary : Bool := false
  octal : Bool := false
  /-- A string has an escape `\8` or `\9`. -/
  uselessEscape : Bool := false
  deriving DecidableEq, Repr, Inhabited

namespace Flags

/-- All facts that hold of one or the other. -/
def union (left right : Flags) : Flags where
  lineBreak := left.lineBreak || right.lineBreak
  unicodeEscape := left.unicodeEscape || right.unicodeEscape
  bracedEscape := left.bracedEscape || right.bracedEscape
  exponent := left.exponent || right.exponent
  octalEscape := left.octalEscape || right.octalEscape
  hexadecimal := left.hexadecimal || right.hexadecimal
  binary := left.binary || right.binary
  octal := left.octal || right.octal
  uselessEscape := left.uselessEscape || right.uselessEscape

/-- The flags as a number, one binary digit each, the first flag lowest. -/
def bits (flags : Flags) : Nat :=
  [flags.lineBreak, flags.unicodeEscape, flags.bracedEscape, flags.exponent, flags.octalEscape,
    flags.hexadecimal, flags.binary, flags.octal, flags.uselessEscape].foldr
      (fun flag higher => flag.toNat + 2 * higher) 0

/-- The escapes that strict code may not contain. -/
def hasLegacyEscape (flags : Flags) : Bool :=
  flags.octalEscape || flags.uselessEscape

end Flags

/-- What the text of a token means. -/
inductive Lexeme where
  | endOfFile
  | identifier (name : String)
  | number (value : Binary64)
  | string (value : String)
  | regularExpression (pattern flags : String)
  | symbol (symbol : Symbol)
  deriving DecidableEq, Repr

namespace Lexeme

/-- The kind of a lexeme. -/
def kind : Lexeme → Kind
  | .endOfFile => .endOfFile
  | .identifier _ => .identifier
  | .number _ => .numericLiteral
  | .string _ => .stringLiteral
  | .regularExpression _ _ => .regularExpressionLiteral
  | .symbol item => .symbol item

/-- The name of an identifier or a reserved word, or the value of a string. -/
def name? : Lexeme → Option String
  | .identifier name => some name
  | .string value => some value
  | .symbol item => if item.isWord then some item.text else none
  | _ => none

end Lexeme

/-- A lexeme with its place in the source. -/
structure Token where
  lexeme : Lexeme
  flags : Flags
  span : Span
  /-- The offset of the first character. -/
  start : Nat
  /-- The offset after the last character. -/
  stop : Nat
  text : String
  deriving DecidableEq, Repr

namespace Token

/-- The kind of a token. -/
def kind (token : Token) : Kind :=
  token.lexeme.kind

/-- The name of an identifier or a reserved word, or the value of a string. -/
def name? (token : Token) : Option String :=
  token.lexeme.name?

/-- What stands for a token before the first one has been read. -/
def unread : Token where
  lexeme := .endOfFile
  flags := {}
  span := default
  start := 0
  stop := 0
  text := ""

end Token

end EcmaScript
