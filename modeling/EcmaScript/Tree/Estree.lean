import EcmaScript.Json.Basic
import EcmaScript.Tree.Basic

/-!
# The ESTree form of a tree

ESTree is the common JSON form of such trees: an object for each node, with its type first and its
place last. Absent parts are null, except that the text of a directive and the parts of a regular
expression are left out where there are none. Binary operators that evaluate their right operand on
demand have a node type of their own, and both forms of property access share one.
-/

namespace EcmaScript

/-- A position as an object. -/
def Position.estree (position : Position) : Json :=
  .object [("line", .natural position.line), ("column", .natural position.column)]

/-- A span as an object. -/
def Span.estree (span : Span) : Json :=
  .object [("start", span.start.estree), ("end", span.stop.estree)]

/-- A node of a type at a place. -/
def Json.node (type : String) (fields : List (String × Json)) (span : Span) : Json :=
  .object (("type", .string type) :: (fields ++ [("loc", span.estree)]))

namespace Identifier

/-- The node of an identifier. -/
def estree (identifier : Identifier) : Json :=
  .node "Identifier" [("name", .string identifier.name)] identifier.span

/-- The node of an optional identifier. -/
def estree? (identifier : Option Identifier) : Json :=
  .ofOption (identifier.map estree)

/-- The nodes of some identifiers. -/
def estrees (identifiers : List Identifier) : Json :=
  .array (identifiers.map estree)

end Identifier

namespace Literal

/-- The value of a literal. A regular expression has no JSON value and is null. -/
def json : Literal → Json
  | .null => .null
  | .boolean value => .boolean value
  | .number value => .number value
  | .string value => .string value
  | .regularExpression _ _ => .null

/-- The parts of a regular expression, as the field that other literals do not have. -/
def regexFields : Literal → List (String × Json)
  | .regularExpression pattern flags =>
    [("regex", .object [("pattern", .string pattern), ("flags", .string flags)])]
  | _ => []

/-- The node of a literal. -/
def estree (literal : Literal) (raw : String) (span : Span) : Json :=
  .node "Literal" ([("value", literal.json), ("raw", .string raw)] ++ literal.regexFields) span

end Literal

/-- The node of the name of a property. -/
def PropertyKey.estree : PropertyKey → Json
  | .identifier name => name.estree
  | .literal value raw span => value.estree raw span

/-- The name of a property kind. -/
def PropertyKind.text : PropertyKind → String
  | .init => "init"
  | .get => "get"
  | .set => "set"

/-- The type of the node of a binary operation. -/
def BinaryOperator.nodeType (operator : BinaryOperator) : String :=
  if operator.isLogical then "LogicalExpression" else "BinaryExpression"

mutual

/-- The node of an expression. -/
def Expression.estree : Expression → Json
  | .identifier name => name.estree
  | .literal value raw span => value.estree raw span
  | .thisValue span => .node "ThisExpression" [] span
  | .array elements span =>
    .node "ArrayExpression" [("elements", .array (Expression.elementEstrees elements))] span
  | .object properties span =>
    .node "ObjectExpression" [("properties", .array (Property.estrees properties))] span
  | .function name parameters body span =>
    .node "FunctionExpression"
      [("id", Identifier.estree? name), ("params", Identifier.estrees parameters),
        ("body", body.estree)] span
  | .unary operator argument span =>
    .node "UnaryExpression"
      [("operator", .string operator.text), ("prefix", .boolean true),
        ("argument", argument.estree)] span
  | .update operator placement argument span =>
    .node "UpdateExpression"
      [("operator", .string operator.text), ("prefix", .boolean (placement == .before)),
        ("argument", argument.estree)] span
  | .binary operator left right span =>
    .node operator.nodeType
      [("operator", .string operator.text), ("left", left.estree), ("right", right.estree)] span
  | .assignment operator target value span =>
    .node "AssignmentExpression"
      [("operator", .string operator.text), ("left", target.estree), ("right", value.estree)] span
  | .conditional test consequent alternate span =>
    .node "ConditionalExpression"
      [("test", test.estree), ("consequent", consequent.estree), ("alternate", alternate.estree)]
      span
  | .call callee arguments span =>
    .node "CallExpression"
      [("callee", callee.estree), ("arguments", .array (Expression.estrees arguments))] span
  | .new callee arguments span =>
    .node "NewExpression"
      [("callee", callee.estree), ("arguments", .array (Expression.estrees arguments))] span
  | .dot object property span =>
    .node "MemberExpression"
      [("object", object.estree), ("property", property.estree), ("computed", .boolean false)] span
  | .index object property span =>
    .node "MemberExpression"
      [("object", object.estree), ("property", property.estree), ("computed", .boolean true)] span
  | .sequence expressions span =>
    .node "SequenceExpression" [("expressions", .array (Expression.estrees expressions))] span

/-- The nodes of some expressions. -/
def Expression.estrees : List Expression → List Json
  | [] => []
  | expression :: expressions => expression.estree :: Expression.estrees expressions

/-- The nodes of the elements of an array; an element that was left out is null. -/
def Expression.elementEstrees : List (Option Expression) → List Json
  | [] => []
  | none :: elements => .null :: Expression.elementEstrees elements
  | some element :: elements => element.estree :: Expression.elementEstrees elements

/-- The node of an optional expression. -/
def Expression.estree? : Option Expression → Json
  | none => .null
  | some expression => expression.estree

/-- The node of a property. -/
def Property.estree : Property → Json
  | ⟨key, value, kind, span⟩ =>
    .node "Property"
      [("key", key.estree), ("value", value.estree), ("kind", .string kind.text),
        ("method", .boolean false), ("shorthand", .boolean false), ("computed", .boolean false)]
      span

/-- The nodes of some properties. -/
def Property.estrees : List Property → List Json
  | [] => []
  | property :: properties => property.estree :: Property.estrees properties

/-- The node of a block. -/
def Block.estree : Block → Json
  | ⟨body, span⟩ => .node "BlockStatement" [("body", .array (Statement.estrees body))] span

/-- The node of an optional block. -/
def Block.estree? : Option Block → Json
  | none => .null
  | some block => block.estree

/-- The node of a declared variable. -/
def VariableDeclarator.estree : VariableDeclarator → Json
  | ⟨name, value, span⟩ =>
    .node "VariableDeclarator" [("id", name.estree), ("init", Expression.estree? value)] span

/-- The nodes of some declared variables. -/
def VariableDeclarator.estrees : List VariableDeclarator → List Json
  | [] => []
  | declarator :: declarators => declarator.estree :: VariableDeclarator.estrees declarators

/-- The node of a declaration. -/
def VariableDeclaration.estree : VariableDeclaration → Json
  | ⟨declarators, span⟩ =>
    .node "VariableDeclaration"
      [("declarations", .array (VariableDeclarator.estrees declarators)), ("kind", .string "var")]
      span

/-- The node of a clause. -/
def SwitchCase.estree : SwitchCase → Json
  | ⟨test, consequent, span⟩ =>
    .node "SwitchCase"
      [("test", Expression.estree? test), ("consequent", .array (Statement.estrees consequent))]
      span

/-- The nodes of some clauses. -/
def SwitchCase.estrees : List SwitchCase → List Json
  | [] => []
  | clause :: clauses => clause.estree :: SwitchCase.estrees clauses

/-- The node of a handler. -/
def CatchClause.estree : CatchClause → Json
  | ⟨parameter, body, span⟩ =>
    .node "CatchClause" [("param", parameter.estree), ("body", body.estree)] span

/-- The node of an optional handler. -/
def CatchClause.estree? : Option CatchClause → Json
  | none => .null
  | some clause => clause.estree

/-- The node of the head of a loop. -/
def ForHead.estree : ForHead → Json
  | .declaration declaration => declaration.estree
  | .expression expression => expression.estree

/-- The node of an optional head of a loop. -/
def ForHead.estree? : Option ForHead → Json
  | none => .null
  | some head => head.estree

/-- The node of a statement. -/
def Statement.estree : Statement → Json
  | .empty span => .node "EmptyStatement" [] span
  | .block inner => inner.estree
  | .expression expression none span =>
    .node "ExpressionStatement" [("expression", expression.estree)] span
  | .expression expression (some directive) span =>
    .node "ExpressionStatement"
      [("expression", expression.estree), ("directive", .string directive)] span
  | .variables declaration => declaration.estree
  | .function name parameters body span =>
    .node "FunctionDeclaration"
      [("id", name.estree), ("params", Identifier.estrees parameters), ("body", body.estree)] span
  | .ifElse test consequent alternate span =>
    .node "IfStatement"
      [("test", test.estree), ("consequent", consequent.estree),
        ("alternate", Statement.estree? alternate)] span
  | .labelled label body span =>
    .node "LabeledStatement" [("label", label.estree), ("body", body.estree)] span
  | .breakTo label span => .node "BreakStatement" [("label", Identifier.estree? label)] span
  | .continueTo label span => .node "ContinueStatement" [("label", Identifier.estree? label)] span
  | .withObject object body span =>
    .node "WithStatement" [("object", object.estree), ("body", body.estree)] span
  | .switch discriminant cases span =>
    .node "SwitchStatement"
      [("discriminant", discriminant.estree), ("cases", .array (SwitchCase.estrees cases))] span
  | .returnValue argument span =>
    .node "ReturnStatement" [("argument", Expression.estree? argument)] span
  | .throwValue argument span => .node "ThrowStatement" [("argument", argument.estree)] span
  | .tryBlock block handler finalizer span =>
    .node "TryStatement"
      [("block", block.estree), ("handler", CatchClause.estree? handler),
        ("finalizer", Block.estree? finalizer)] span
  | .whileLoop test body span =>
    .node "WhileStatement" [("test", test.estree), ("body", body.estree)] span
  | .doWhileLoop body test span =>
    .node "DoWhileStatement" [("body", body.estree), ("test", test.estree)] span
  | .forLoop init test update body span =>
    .node "ForStatement"
      [("init", ForHead.estree? init), ("test", Expression.estree? test),
        ("update", Expression.estree? update), ("body", body.estree)] span
  | .forInLoop left right body span =>
    .node "ForInStatement"
      [("left", left.estree), ("right", right.estree), ("body", body.estree)] span
  | .debugger span => .node "DebuggerStatement" [] span

/-- The nodes of some statements. -/
def Statement.estrees : List Statement → List Json
  | [] => []
  | statement :: statements => statement.estree :: Statement.estrees statements

/-- The node of an optional statement. -/
def Statement.estree? : Option Statement → Json
  | none => .null
  | some statement => statement.estree

end

/-- The node of a program. -/
def Program.estree (program : Program) : Json :=
  .node "Program"
    [("body", .array (Statement.estrees program.body)), ("sourceType", .string "script")]
    program.span

/-- Programs with the same ESTree text. -/
def Program.agrees (left right : Program) : Bool :=
  left.estree.text == right.estree.text

theorem Program.agrees_refl (program : Program) : program.agrees program = true := by
  simp [agrees]

end EcmaScript
