import EcmaScript.Token.Basic

/-!
# Faults and diagnostics

Reading a source text ends with a result or with one fault: a cause and the position nearest to
where it was noticed. A diagnostic is what is reported of a fault, the category of its cause and a
message.
-/

namespace EcmaScript

/-- The level of the language that a fault belongs to. -/
inductive Category where
  /-- A malformed token. -/
  | lexical
  /-- Tokens in an order that the grammar does not allow. -/
  | syntactic
  /-- A construct where its surroundings forbid it. -/
  | contextual
  deriving DecidableEq, Repr

/-- The name a category is reported under. -/
def Category.name : Category → String
  | .lexical => "Lexical"
  | .syntactic => "Syntactic"
  | .contextual => "Contextual"

/-- What can be wrong with a source text. -/
inductive Cause where
  | unexpectedCharacter
  | unterminatedString
  | unterminatedComment
  | unterminatedRegularExpression
  | invalidRegularExpressionFlags
  | invalidPattern (pattern reason : String)
  | invalidHexadecimalEscape
  | invalidUnicodeEscape
  | undefinedCodePoint
  | escapedKeyword
  | invalidNumber
  | identifierAfterNumber
  | unexpectedToken (kind : Kind) (name : Option String)
  | invalidAssignmentTarget
  | invalidTargetAfterUpdate
  | invalidTargetBeforeUpdate
  | setterParameters
  | getterParameters
  | tryAlone
  | repeatedDefault
  /-- Nested constructs ran past the number of tokens there can be. No text has this fault. -/
  | exhausted
  | illegalBreak
  | illegalContinue
  | illegalReturn
  | lineBreakAfterThrow
  | invalidForInTarget
  | severalForInBindings
  | strictWith
  | strictDelete
  | strictEvalOrArguments
  | strictReservedWord
  | strictOctalEscape
  | undefinedLabel (name : String)
  | repeatedLabel (name : String)
  deriving DecidableEq, Repr

namespace Cause

/-- The category of a cause. -/
def category : Cause → Category
  | .unexpectedCharacter | .unterminatedString | .unterminatedComment
  | .unterminatedRegularExpression | .invalidRegularExpressionFlags | .invalidPattern ..
  | .invalidHexadecimalEscape | .invalidUnicodeEscape | .undefinedCodePoint | .escapedKeyword
  | .invalidNumber | .identifierAfterNumber => .lexical
  | .unexpectedToken .. | .invalidAssignmentTarget | .invalidTargetAfterUpdate
  | .invalidTargetBeforeUpdate | .setterParameters | .getterParameters | .tryAlone
  | .repeatedDefault | .exhausted => .syntactic
  | .illegalBreak | .illegalContinue | .illegalReturn | .lineBreakAfterThrow
  | .invalidForInTarget | .severalForInBindings | .strictWith | .strictDelete
  | .strictEvalOrArguments | .strictReservedWord | .strictOctalEscape | .undefinedLabel _
  | .repeatedLabel _ => .contextual

/-- The message about a cause. -/
def message : Cause → String
  | .unexpectedCharacter => "Invalid or unexpected token"
  | .unterminatedString => "Unterminated string literal"
  | .unterminatedComment => "Unterminated comment"
  | .unterminatedRegularExpression => "Unterminated regular expression"
  | .invalidRegularExpressionFlags => "Invalid regular expression flags"
  | .invalidPattern pattern reason =>
    "Invalid regular expression: /" ++ pattern ++ "/: " ++ reason
  | .invalidHexadecimalEscape => "Invalid hexadecimal escape sequence"
  | .invalidUnicodeEscape => "Invalid Unicode escape sequence"
  | .undefinedCodePoint => "Undefined Unicode code-point"
  | .escapedKeyword => "Keyword must not contain escaped characters"
  | .invalidNumber => "Invalid numeric literal"
  | .identifierAfterNumber => "Numeric literal must not be immediately followed by an identifier"
  | .unexpectedToken .endOfFile _ => "Unexpected end of input"
  | .unexpectedToken .identifier (some name) => "Unexpected identifier '" ++ name ++ "'"
  | .unexpectedToken .numericLiteral _ => "Unexpected number"
  | .unexpectedToken .stringLiteral _ => "Unexpected string"
  | .unexpectedToken kind _ => "Unexpected token " ++ kind.text
  | .invalidAssignmentTarget => "Invalid left-hand side in assignment"
  | .invalidTargetAfterUpdate => "Invalid left-hand side expression in prefix operation"
  | .invalidTargetBeforeUpdate => "Invalid left-hand side expression in postfix operation"
  | .setterParameters => "Setter must have exactly one formal parameter"
  | .getterParameters => "Getter must not have any formal parameters"
  | .tryAlone => "Missing catch or finally after try"
  | .repeatedDefault => "More than one default clause in switch statement"
  | .exhausted => "Constructs are nested too deeply"
  | .illegalBreak => "Illegal break statement"
  | .illegalContinue => "Illegal continue statement: no surrounding iteration statement"
  | .illegalReturn => "Illegal return statement"
  | .lineBreakAfterThrow => "Illegal newline after throw"
  | .invalidForInTarget => "Invalid left-hand side in for-in loop"
  | .severalForInBindings =>
    "Invalid left-hand side in for-in loop: Must have a single binding."
  | .strictWith => "Strict mode code may not include a with statement"
  | .strictDelete => "Delete of an unqualified identifier in strict mode."
  | .strictEvalOrArguments => "Unexpected eval or arguments in strict mode"
  | .strictReservedWord => "Unexpected strict mode reserved word"
  | .strictOctalEscape => "Octal escape sequences are not allowed in strict mode."
  | .undefinedLabel name => "Undefined label '" ++ name ++ "'"
  | .repeatedLabel name => "Label '" ++ name ++ "' has already been declared"

end Cause

/-- A cause and where it was noticed. -/
structure Fault where
  cause : Cause
  position : Position
  deriving DecidableEq, Repr

/-- What is reported of a fault. -/
structure Diagnostic where
  category : Category
  message : String
  position : Position
  deriving DecidableEq, Repr

/-- The report of a fault. -/
def Fault.diagnostic (fault : Fault) : Diagnostic :=
  ⟨fault.cause.category, fault.cause.message, fault.position⟩

/-- The message with its position. -/
def Diagnostic.text (diagnostic : Diagnostic) : String :=
  let position := diagnostic.position
  diagnostic.message ++ s!" at ({position.line}, {position.column})"

/-- The cause that a token stands where the grammar does not allow it. -/
def Token.unexpected (token : Token) : Cause :=
  .unexpectedToken token.kind token.name?

end EcmaScript
