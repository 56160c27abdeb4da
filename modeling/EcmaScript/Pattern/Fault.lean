/-!
# Faults of patterns

The reasons for which the pattern of a regular expression is refused. Only the first one met is
reported.
-/

namespace EcmaScript.Pattern

/-- What can be wrong with a pattern. -/
inductive Fault where
  | duplicateGroupName
  | unbalancedParenthesis
  | invalidGroupModifier
  | invalidGroupName
  | invalidAtom
  | invalidBracedQuantifier
  | invalidQuantifier
  | quantifierNotAllowed
  | unfinishedEscape
  | unfinishedClassEscape
  | invalidCharacterEscape
  | invalidUnicodeEscape
  | unfinishedNamedReference
  | unknownGroup (name : String)
  | reversedRange
  | invalidRange
  | unbalancedBracket
  | invalidPropertyStart
  | invalidPropertyName
  deriving DecidableEq, Repr

/-- The reason that is given for a fault. -/
def Fault.reason : Fault → String
  | .duplicateGroupName => "Duplicate capture group name"
  | .unbalancedParenthesis => "Unbalanced parenthesis"
  | .invalidGroupModifier => "Invalid group modifier"
  | .invalidGroupName => "Invalid token at named capture group identifier"
  | .invalidAtom => "Invalid atom character"
  | .invalidBracedQuantifier => "Invalid braced quantifier"
  | .invalidQuantifier => "Invalid quantifier"
  | .quantifierNotAllowed => "Quantifier not allowed here"
  | .unfinishedEscape => "Incomplete escape"
  | .unfinishedClassEscape => "Unterminated escape"
  | .invalidCharacterEscape => "Invalid character escape"
  | .invalidUnicodeEscape => "Invalid unicode escape"
  | .unfinishedNamedReference => "Unexpected end of named backreference"
  | .unknownGroup name => "Backreference to invalid named capture group: " ++ name
  | .reversedRange => "Range values reversed, start char code is greater than end char code."
  | .invalidRange => "Invalid character range"
  | .unbalancedBracket => "Unbalanced bracket"
  | .invalidPropertyStart => "Invalid character at property escape start"
  | .invalidPropertyName => "Invalid property name"

end EcmaScript.Pattern
