import EcmaScript.Number.Binary64
import EcmaScript.Operator
import EcmaScript.Source.Position

/-!
# Trees of scripts

A program is a list of statements, and every node of its tree has the span it was read from. Names
that are bound, or that label a statement, are identifiers; so are the properties after a point. A
parenthesised expression has no node of its own and keeps the span inside the parentheses.
-/

namespace EcmaScript

/-- A name with its place. -/
structure Identifier where
  name : String
  span : Span
  deriving DecidableEq, Repr

/-- The value of a literal. -/
inductive Literal where
  | null
  | boolean (value : Bool)
  | number (value : Binary64)
  | string (value : String)
  | regularExpression (pattern flags : String)
  deriving DecidableEq, Repr

/-- The name of a property in an object literal. A literal keeps the text it was read from. -/
inductive PropertyKey where
  | identifier (name : Identifier)
  | literal (value : Literal) (raw : String) (span : Span)
  deriving DecidableEq, Repr

/-- What a property of an object literal defines. -/
inductive PropertyKind where
  | init | get | set
  deriving DecidableEq, Repr

/-- On which side of its operand `++` or `--` stands. -/
inductive Placement where
  | before | after
  deriving DecidableEq, Repr

mutual

/-- Expressions. The elements of an array that are left out are absent. -/
inductive Expression where
  | identifier (name : Identifier)
  | literal (value : Literal) (raw : String) (span : Span)
  | thisValue (span : Span)
  | array (elements : List (Option Expression)) (span : Span)
  | object (properties : List Property) (span : Span)
  | function (name : Option Identifier) (parameters : List Identifier) (body : Block) (span : Span)
  | unary (operator : UnaryOperator) (argument : Expression) (span : Span)
  | update (operator : UpdateOperator) (placement : Placement) (argument : Expression)
      (span : Span)
  | binary (operator : BinaryOperator) (left right : Expression) (span : Span)
  | assignment (operator : AssignmentOperator) (target value : Expression) (span : Span)
  | conditional (test consequent alternate : Expression) (span : Span)
  | call (callee : Expression) (arguments : List Expression) (span : Span)
  | new (callee : Expression) (arguments : List Expression) (span : Span)
  | dot (object : Expression) (property : Identifier) (span : Span)
  | index (object property : Expression) (span : Span)
  | sequence (expressions : List Expression) (span : Span)

/-- A property of an object literal. The value of an accessor is its function. -/
structure Property where
  key : PropertyKey
  value : Expression
  kind : PropertyKind
  span : Span

/-- Statements in braces. -/
structure Block where
  body : List Statement
  span : Span

/-- A name that is declared, with its initial value if there is one. -/
structure VariableDeclarator where
  name : Identifier
  value : Option Expression
  span : Span

/-- The declaration of some variables. -/
structure VariableDeclaration where
  declarators : List VariableDeclarator
  span : Span

/-- A clause of a `switch` statement; the default clause has no test. -/
structure SwitchCase where
  test : Option Expression
  consequent : List Statement
  span : Span

/-- The handler of a `try` statement. -/
structure CatchClause where
  parameter : Identifier
  body : Block
  span : Span

/-- What a loop over numbers begins with, or a loop over properties assigns to. -/
inductive ForHead where
  | declaration (declaration : VariableDeclaration)
  | expression (expression : Expression)

/-- Statements. An expression statement that is a directive has the text of the directive. -/
inductive Statement where
  | empty (span : Span)
  | block (block : Block)
  | expression (expression : Expression) (directive : Option String) (span : Span)
  | variables (declaration : VariableDeclaration)
  | function (name : Identifier) (parameters : List Identifier) (body : Block) (span : Span)
  | ifElse (test : Expression) (consequent : Statement) (alternate : Option Statement)
      (span : Span)
  | labelled (label : Identifier) (body : Statement) (span : Span)
  | breakTo (label : Option Identifier) (span : Span)
  | continueTo (label : Option Identifier) (span : Span)
  | withObject (object : Expression) (body : Statement) (span : Span)
  | switch (discriminant : Expression) (cases : List SwitchCase) (span : Span)
  | returnValue (argument : Option Expression) (span : Span)
  | throwValue (argument : Expression) (span : Span)
  | tryBlock (block : Block) (handler : Option CatchClause) (finalizer : Option Block)
      (span : Span)
  | whileLoop (test : Expression) (body : Statement) (span : Span)
  | doWhileLoop (body : Statement) (test : Expression) (span : Span)
  | forLoop (init : Option ForHead) (test update : Option Expression) (body : Statement)
      (span : Span)
  | forInLoop (left : ForHead) (right : Expression) (body : Statement) (span : Span)
  | debugger (span : Span)

end

/-- A whole script. -/
structure Program where
  body : List Statement
  span : Span

namespace Expression

instance : Inhabited Expression := ⟨.thisValue default⟩

instance : Coe Identifier Expression := ⟨.identifier⟩

/-- The place of an expression. -/
def span : Expression → Span
  | .identifier name => name.span
  | .literal _ _ span | .thisValue span | .array _ span | .object _ span | .function _ _ _ span
  | .unary _ _ span | .update _ _ _ span | .binary _ _ _ span | .assignment _ _ _ span
  | .conditional _ _ _ span | .call _ _ span | .new _ _ span | .dot _ _ span | .index _ _ span
  | .sequence _ span => span

/-- The expressions that can be assigned to: names and properties. -/
def isReference : Expression → Bool
  | .identifier _ | .dot .. | .index .. => true
  | _ => false

/-- The name that an expression is. -/
def name? : Expression → Option String
  | .identifier name => some name.name
  | _ => none

theorem isReference_of_name? {expression : Expression} {name : String}
    (named : expression.name? = some name) : expression.isReference = true := by
  cases expression <;> simp_all [name?, isReference]

end Expression

namespace Statement

instance : Inhabited Statement := ⟨.empty default⟩

/-- The place of a statement. -/
def span : Statement → Span
  | .block inner => inner.span
  | .variables declaration => declaration.span
  | .empty span | .expression _ _ span | .function _ _ _ span | .ifElse _ _ _ span
  | .labelled _ _ span | .breakTo _ span | .continueTo _ span | .withObject _ _ span
  | .switch _ _ span | .returnValue _ span | .throwValue _ span | .tryBlock _ _ _ span
  | .whileLoop _ _ span | .doWhileLoop _ _ span | .forLoop _ _ _ _ span | .forInLoop _ _ _ span
  | .debugger span => span

end Statement

end EcmaScript
