import EcmaScript.Tree.Basic

/-!
# Nodes of a tree

Whatever has a span of its own is a node: expressions and statements, and the names, keys, blocks,
declarations and clauses inside them. The children of a node are listed in the order of the source
text. A node occurs in a tree at the end of a path of steps from parents to children, and a property
holds everywhere in a tree when it holds of every occurrence.
-/

namespace EcmaScript

/-- A part of a tree that has a span of its own. -/
inductive Node where
  | expression (expression : Expression)
  /-- The name of a property after a point. -/
  | name (name : Identifier)
  | key (key : PropertyKey)
  | property (property : Property)
  /-- The name of a variable, of a parameter or of a function. -/
  | binding (name : Identifier)
  | label (name : Identifier)
  | block (block : Block)
  | declarator (declarator : VariableDeclarator)
  /-- A declaration in the head of a loop. -/
  | declaration (declaration : VariableDeclaration)
  | clause (clause : SwitchCase)
  | handler (handler : CatchClause)
  | statement (statement : Statement)

/-- The place of the name of a property. -/
def PropertyKey.span : PropertyKey → Span
  | .identifier name => name.span
  | .literal _ _ span => span

/-- The node that a loop begins with. -/
def ForHead.node : ForHead → Node
  | .declaration item => .declaration item
  | .expression target => .expression target

/-- The nodes directly inside an expression. -/
def Expression.children : Expression → List Node
  | .identifier _ | .literal .. | .thisValue _ => []
  | .array elements _ => (elements.filterMap id).map .expression
  | .object properties _ => properties.map .property
  | .function name parameters body _ =>
    name.toList.map .binding ++ (parameters.map .binding ++ [.block body])
  | .unary _ argument _ => [.expression argument]
  | .update _ _ argument _ => [.expression argument]
  | .binary _ left right _ => [.expression left, .expression right]
  | .assignment _ target value _ => [.expression target, .expression value]
  | .conditional test consequent alternate _ =>
    [.expression test, .expression consequent, .expression alternate]
  | .call callee arguments _ => .expression callee :: arguments.map .expression
  | .new callee arguments _ => .expression callee :: arguments.map .expression
  | .dot holder property _ => [.expression holder, .name property]
  | .index holder property _ => [.expression holder, .expression property]
  | .sequence expressions _ => expressions.map .expression

/-- The nodes directly inside a statement. -/
def Statement.children : Statement → List Node
  | .empty _ | .debugger _ => []
  | .block inner => inner.body.map .statement
  | .expression value _ _ => [.expression value]
  | .variables declaration => declaration.declarators.map .declarator
  | .function name parameters body _ =>
    .binding name :: (parameters.map .binding ++ [.block body])
  | .ifElse test consequent alternate _ =>
    .expression test :: .statement consequent :: alternate.toList.map .statement
  | .labelled label body _ => [.label label, .statement body]
  | .breakTo label _ => label.toList.map .label
  | .continueTo label _ => label.toList.map .label
  | .withObject object body _ => [.expression object, .statement body]
  | .switch discriminant cases _ => .expression discriminant :: cases.map .clause
  | .returnValue argument _ => argument.toList.map .expression
  | .throwValue argument _ => [.expression argument]
  | .tryBlock inner handler finalizer _ =>
    .block inner :: (handler.toList.map .handler ++ finalizer.toList.map .block)
  | .whileLoop test body _ => [.expression test, .statement body]
  | .doWhileLoop body test _ => [.statement body, .expression test]
  | .forLoop init test update body _ =>
    init.toList.map ForHead.node ++
      (test.toList.map .expression ++ (update.toList.map .expression ++ [.statement body]))
  | .forInLoop left right body _ => [left.node, .expression right, .statement body]

namespace Node

/-- The place of a node. -/
def span : Node → Span
  | .expression item => item.span
  | .name item | .binding item | .label item => item.span
  | .key item => item.span
  | .property item => item.span
  | .block item => item.span
  | .declarator item => item.span
  | .declaration item => item.span
  | .clause item => item.span
  | .handler item => item.span
  | .statement item => item.span

/-- The nodes directly inside a node, in the order of the source text. -/
def children : Node → List Node
  | .expression item => item.children
  | .name _ | .key _ | .binding _ | .label _ => []
  | .property item => [.key item.key, .expression item.value]
  | .block item => item.body.map .statement
  | .declarator item => .binding item.name :: item.value.toList.map .expression
  | .declaration item => item.declarators.map .declarator
  | .clause item => item.test.toList.map .expression ++ item.consequent.map .statement
  | .handler item => [.binding item.parameter, .block item.body]
  | .statement item => item.children

end Node

/-- A step down a tree, from a node to one of its children. -/
structure Step where
  parent : Node
  child : Node

/-- The step goes from a function to its body. -/
def Step.entersFunction (step : Step) : Bool :=
  match step.parent, step.child with
  | .expression (.function ..), .block _ => true
  | .statement (.function ..), .block _ => true
  | _, _ => false

/-- A node occurs in the tree of a root at the end of a path, whose last step comes first. -/
inductive Node.Occurs (root : Node) : List Step → Node → Prop where
  | root : Occurs root [] root
  | child {path : List Step} {parent child : Node} :
      Occurs root path parent → child ∈ parent.children →
      Occurs root (⟨parent, child⟩ :: path) child

/-- A node occurs below a program, in one of its statements. -/
def Program.Occurs (program : Program) (path : List Step) (node : Node) : Prop :=
  ∃ statement ∈ program.body, (Node.statement statement).Occurs path node

namespace Node

/-- A property of nodes and of the paths to them holds of all that occurs in the tree of a node. -/
def Everywhere (property : List Step → Node → Prop) (root : Node) : Prop :=
  ∀ path node, root.Occurs path node → property path node

/-- An occurrence is the root itself or lies below one of its children. -/
theorem Occurs.cases_root {root node : Node} {path : List Step} (occurs : root.Occurs path node) :
    (path = [] ∧ node = root) ∨
      ∃ child ∈ root.children, ∃ below, child.Occurs below node ∧
        path = below ++ [⟨root, child⟩] := by
  induction occurs with
  | root => exact .inl ⟨rfl, rfl⟩
  | @child path parent child occurs member ih =>
    right
    rcases ih with ⟨rfl, rfl⟩ | ⟨first, firstMember, below, deeper, rfl⟩
    · exact ⟨child, member, [], .root, rfl⟩
    · exact ⟨first, firstMember, ⟨parent, child⟩ :: below, .child deeper member, rfl⟩

/-- What occurs below a child occurs below the root. -/
theorem Occurs.of_child {root child node : Node} {path : List Step}
    (member : child ∈ root.children) (occurs : child.Occurs path node) :
    root.Occurs (path ++ [⟨root, child⟩]) node := by
  induction occurs with
  | root => exact .child .root member
  | child _ deeper ih => exact .child ih deeper

/-- A property holds everywhere when it holds of the root and everywhere below its children. -/
theorem everywhere_iff {property : List Step → Node → Prop} {root : Node} :
    root.Everywhere property ↔
      property [] root ∧ ∀ child ∈ root.children,
        child.Everywhere fun path => property (path ++ [⟨root, child⟩]) := by
  constructor
  · intro every
    refine ⟨every [] root .root, ?_⟩
    intro child member path node occurs
    exact every _ node (occurs.of_child member)
  · rintro ⟨here, below⟩ path node occurs
    rcases occurs.cases_root with ⟨rfl, rfl⟩ | ⟨child, member, deeper, inside, rfl⟩
    · exact here
    · exact below child member deeper node inside

end Node

end EcmaScript
