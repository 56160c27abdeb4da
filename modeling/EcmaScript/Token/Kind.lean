import EcmaScript.Token.Symbol

/-!
# Kinds of tokens

A token is the end of the text, an identifier, a literal or a symbol. Kinds are listed, and
compared, by their place in one fixed order: the kinds whose text varies, and then the symbols.
-/

namespace EcmaScript

/-- What a token is, whatever its value. -/
inductive Kind where
  | endOfFile
  | identifier
  | numericLiteral
  | stringLiteral
  | regularExpressionLiteral
  | symbol (symbol : Symbol)
  deriving DecidableEq, Repr

namespace Kind

instance : Coe Symbol Kind := ⟨.symbol⟩

/-- All kinds in their order. -/
def all : List Kind :=
  [.endOfFile, .identifier, .numericLiteral, .stringLiteral, .regularExpressionLiteral] ++
    Symbol.all.map .symbol

theorem mem_all (kind : Kind) : kind ∈ all := by
  cases kind <;> simp [all, Symbol.mem_all]

/-- The place of a kind in the order of all kinds. -/
def ordinal : Kind → Nat
  | .endOfFile => 0
  | .identifier => 1
  | .numericLiteral => 2
  | .stringLiteral => 3
  | .regularExpressionLiteral => 4
  | .symbol item => 5 + item.ordinal

theorem map_ordinal_all : all.map ordinal = List.range all.length := by
  decide +kernel

instance : Ord Kind := ⟨fun left right => compare left.ordinal right.ordinal⟩

/-- The text of a symbol, or what to call a token whose text varies. -/
def text : Kind → String
  | .endOfFile => "end of input"
  | .identifier => "identifier"
  | .numericLiteral => "number"
  | .stringLiteral => "string"
  | .regularExpressionLiteral => "regular expression"
  | .symbol item => item.text

/-- The name a kind is reported under. -/
def name : Kind → String
  | .endOfFile => "EndOfFile"
  | .identifier => "Identifier"
  | .numericLiteral => "NumericLiteral"
  | .stringLiteral => "StringLiteral"
  | .regularExpressionLiteral => "RegularExpressionLiteral"
  | .symbol item => item.name

/-- The kind that is reported under a name. -/
def ofName? (name : String) : Option Kind :=
  all.find? (·.name == name)

/-- The reserved words. -/
def isReservedWord : Kind → Bool
  | .symbol item => item.isWord
  | _ => false

/-- Identifiers and reserved words, which may both name a property. -/
def isIdentifierName (kind : Kind) : Bool :=
  kind == .identifier || kind.isReservedWord

/-- The binary operator that a kind is. -/
def binaryOperator? : Kind → Option BinaryOperator
  | .symbol (.binary operator) => some operator
  | _ => none

/-- The assignment operator that a kind is. -/
def assignmentOperator? : Kind → Option AssignmentOperator
  | .symbol (.assignment operator) => some operator
  | _ => none

/-- The update operator that a kind is. -/
def updateOperator? : Kind → Option UpdateOperator
  | .symbol (.update operator) => some operator
  | _ => none

/-- The unary operator that a kind is before an operand. -/
def unaryOperator? : Kind → Option UnaryOperator
  | .symbol item => item.unaryOperator?
  | _ => none

end Kind

end EcmaScript
