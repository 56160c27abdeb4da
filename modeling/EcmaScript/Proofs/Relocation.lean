import EcmaScript.Proofs.Node

/-!
# Trees with other positions

A tree can be moved to other positions, with every span in it. Two trees that become equal when the
positions of each are replaced by one and the same position differ in nothing but their positions.
`Located` has the types whose values hold positions, and lists the nodes in a value.
-/

namespace EcmaScript

variable (move : Position → Position)

/-- The span with both ends moved. -/
def Span.relocate (span : Span) : Span :=
  ⟨move span.start, move span.stop⟩

/-- The identifier at another place. -/
def Identifier.relocate (identifier : Identifier) : Identifier :=
  ⟨identifier.name, identifier.span.relocate move⟩

/-- The name of a property at another place. -/
def PropertyKey.relocate : PropertyKey → PropertyKey
  | .identifier name => .identifier (name.relocate move)
  | .literal value raw span => .literal value raw (span.relocate move)

mutual

/-- The expression at other positions. -/
def Expression.relocate : Expression → Expression
  | .identifier name => .identifier (name.relocate move)
  | .literal value raw span => .literal value raw (span.relocate move)
  | .thisValue span => .thisValue (span.relocate move)
  | .array elements span => .array (Expression.relocateElements elements) (span.relocate move)
  | .object properties span => .object (Property.relocateAll properties) (span.relocate move)
  | .function name parameters body span =>
    .function (name.map (·.relocate move)) (parameters.map (·.relocate move)) body.relocate
      (span.relocate move)
  | .unary operator argument span => .unary operator argument.relocate (span.relocate move)
  | .update operator placement argument span =>
    .update operator placement argument.relocate (span.relocate move)
  | .binary operator left right span =>
    .binary operator left.relocate right.relocate (span.relocate move)
  | .assignment operator target value span =>
    .assignment operator target.relocate value.relocate (span.relocate move)
  | .conditional test consequent alternate span =>
    .conditional test.relocate consequent.relocate alternate.relocate (span.relocate move)
  | .call callee arguments span =>
    .call callee.relocate (Expression.relocateAll arguments) (span.relocate move)
  | .new callee arguments span =>
    .new callee.relocate (Expression.relocateAll arguments) (span.relocate move)
  | .dot object property span =>
    .dot object.relocate (property.relocate move) (span.relocate move)
  | .index object property span =>
    .index object.relocate property.relocate (span.relocate move)
  | .sequence expressions span =>
    .sequence (Expression.relocateAll expressions) (span.relocate move)

/-- Some expressions at other positions. -/
def Expression.relocateAll : List Expression → List Expression
  | [] => []
  | expression :: expressions => expression.relocate :: Expression.relocateAll expressions

/-- The elements of an array at other positions. -/
def Expression.relocateElements : List (Option Expression) → List (Option Expression)
  | [] => []
  | none :: elements => none :: Expression.relocateElements elements
  | some element :: elements => some element.relocate :: Expression.relocateElements elements

/-- An optional expression at other positions. -/
def Expression.relocate? : Option Expression → Option Expression
  | none => none
  | some expression => some expression.relocate

/-- The property at other positions. -/
def Property.relocate : Property → Property
  | ⟨key, value, kind, span⟩ => ⟨key.relocate move, value.relocate, kind, span.relocate move⟩

/-- Some properties at other positions. -/
def Property.relocateAll : List Property → List Property
  | [] => []
  | property :: properties => property.relocate :: Property.relocateAll properties

/-- The block at other positions. -/
def Block.relocate : Block → Block
  | ⟨body, span⟩ => ⟨Statement.relocateAll body, span.relocate move⟩

/-- An optional block at other positions. -/
def Block.relocate? : Option Block → Option Block
  | none => none
  | some block => some block.relocate

/-- The declared variable at other positions. -/
def VariableDeclarator.relocate : VariableDeclarator → VariableDeclarator
  | ⟨name, value, span⟩ => ⟨name.relocate move, Expression.relocate? value, span.relocate move⟩

/-- Some declared variables at other positions. -/
def VariableDeclarator.relocateAll : List VariableDeclarator → List VariableDeclarator
  | [] => []
  | declarator :: declarators => declarator.relocate :: VariableDeclarator.relocateAll declarators

/-- The declaration at other positions. -/
def VariableDeclaration.relocate : VariableDeclaration → VariableDeclaration
  | ⟨declarators, span⟩ => ⟨VariableDeclarator.relocateAll declarators, span.relocate move⟩

/-- The clause at other positions. -/
def SwitchCase.relocate : SwitchCase → SwitchCase
  | ⟨test, consequent, span⟩ =>
    ⟨Expression.relocate? test, Statement.relocateAll consequent, span.relocate move⟩

/-- Some clauses at other positions. -/
def SwitchCase.relocateAll : List SwitchCase → List SwitchCase
  | [] => []
  | clause :: clauses => clause.relocate :: SwitchCase.relocateAll clauses

/-- The handler at other positions. -/
def CatchClause.relocate : CatchClause → CatchClause
  | ⟨parameter, body, span⟩ => ⟨parameter.relocate move, body.relocate, span.relocate move⟩

/-- An optional handler at other positions. -/
def CatchClause.relocate? : Option CatchClause → Option CatchClause
  | none => none
  | some clause => some clause.relocate

/-- The head of a loop at other positions. -/
def ForHead.relocate : ForHead → ForHead
  | .declaration declaration => .declaration declaration.relocate
  | .expression expression => .expression expression.relocate

/-- An optional head of a loop at other positions. -/
def ForHead.relocate? : Option ForHead → Option ForHead
  | none => none
  | some head => some head.relocate

/-- The statement at other positions. -/
def Statement.relocate : Statement → Statement
  | .empty span => .empty (span.relocate move)
  | .block inner => .block inner.relocate
  | .expression expression directive span =>
    .expression expression.relocate directive (span.relocate move)
  | .variables declaration => .variables declaration.relocate
  | .function name parameters body span =>
    .function (name.relocate move) (parameters.map (·.relocate move)) body.relocate
      (span.relocate move)
  | .ifElse test consequent alternate span =>
    .ifElse test.relocate consequent.relocate (Statement.relocate? alternate) (span.relocate move)
  | .labelled label body span => .labelled (label.relocate move) body.relocate (span.relocate move)
  | .breakTo label span => .breakTo (label.map (·.relocate move)) (span.relocate move)
  | .continueTo label span => .continueTo (label.map (·.relocate move)) (span.relocate move)
  | .withObject object body span => .withObject object.relocate body.relocate (span.relocate move)
  | .switch discriminant cases span =>
    .switch discriminant.relocate (SwitchCase.relocateAll cases) (span.relocate move)
  | .returnValue argument span => .returnValue (Expression.relocate? argument) (span.relocate move)
  | .throwValue argument span => .throwValue argument.relocate (span.relocate move)
  | .tryBlock block handler finalizer span =>
    .tryBlock block.relocate (CatchClause.relocate? handler) (Block.relocate? finalizer)
      (span.relocate move)
  | .whileLoop test body span => .whileLoop test.relocate body.relocate (span.relocate move)
  | .doWhileLoop body test span => .doWhileLoop body.relocate test.relocate (span.relocate move)
  | .forLoop init test update body span =>
    .forLoop (ForHead.relocate? init) (Expression.relocate? test) (Expression.relocate? update)
      body.relocate (span.relocate move)
  | .forInLoop left right body span =>
    .forInLoop left.relocate right.relocate body.relocate (span.relocate move)
  | .debugger span => .debugger (span.relocate move)

/-- Some statements at other positions. -/
def Statement.relocateAll : List Statement → List Statement
  | [] => []
  | statement :: statements => statement.relocate :: Statement.relocateAll statements

/-- An optional statement at other positions. -/
def Statement.relocate? : Option Statement → Option Statement
  | none => none
  | some statement => some statement.relocate

end

/-- The program at other positions. -/
def Program.relocate (program : Program) : Program :=
  ⟨Statement.relocateAll move program.body, program.span.relocate move⟩

/-- The program without its positions: with one and the same position everywhere. -/
def Program.unplaced (program : Program) : Program :=
  program.relocate fun _ => .first

section Lists

theorem Expression.relocateAll_eq (expressions : List Expression) :
    relocateAll move expressions = expressions.map (relocate move) := by
  induction expressions with
  | nil => rfl
  | cons expression expressions ih => rw [relocateAll, ih, List.map_cons]

theorem Expression.relocateElements_eq (elements : List (Option Expression)) :
    relocateElements move elements = elements.map (Option.map (relocate move)) := by
  induction elements with
  | nil => rfl
  | cons element elements ih => cases element <;> simp [relocateElements, ih]

theorem Property.relocateAll_eq (properties : List Property) :
    relocateAll move properties = properties.map (relocate move) := by
  induction properties with
  | nil => rfl
  | cons property properties ih => rw [relocateAll, ih, List.map_cons]

theorem VariableDeclarator.relocateAll_eq (declarators : List VariableDeclarator) :
    relocateAll move declarators = declarators.map (relocate move) := by
  induction declarators with
  | nil => rfl
  | cons declarator declarators ih => rw [relocateAll, ih, List.map_cons]

theorem SwitchCase.relocateAll_eq (clauses : List SwitchCase) :
    relocateAll move clauses = clauses.map (relocate move) := by
  induction clauses with
  | nil => rfl
  | cons clause clauses ih => rw [relocateAll, ih, List.map_cons]

theorem Statement.relocateAll_eq (statements : List Statement) :
    relocateAll move statements = statements.map (relocate move) := by
  induction statements with
  | nil => rfl
  | cons statement statements ih => rw [relocateAll, ih, List.map_cons]

theorem Expression.relocate?_eq (expression : Option Expression) :
    relocate? move expression = expression.map (relocate move) := by
  cases expression <;> rfl

theorem Block.relocate?_eq (block : Option Block) :
    relocate? move block = block.map (relocate move) := by
  cases block <;> rfl

theorem CatchClause.relocate?_eq (clause : Option CatchClause) :
    relocate? move clause = clause.map (relocate move) := by
  cases clause <;> rfl

theorem ForHead.relocate?_eq (head : Option ForHead) :
    relocate? move head = head.map (relocate move) := by
  cases head <;> rfl

theorem Statement.relocate?_eq (statement : Option Statement) :
    relocate? move statement = statement.map (relocate move) := by
  cases statement <;> rfl

end Lists

/-- Programs are the same but for their positions if their statements are. -/
theorem Program.unplaced_eq {body other : List Statement}
    (same : other.map (Statement.relocate fun _ => .first) =
      body.map (Statement.relocate fun _ => .first)) (span spanToo : Span) :
    (Program.mk other spanToo).unplaced = (Program.mk body span).unplaced := by
  rw [unplaced, unplaced, relocate, relocate, Statement.relocateAll_eq, Statement.relocateAll_eq,
    same]
  rfl

section Identity

theorem Identifier.relocate_id (identifier : Identifier) : identifier.relocate id = identifier :=
  rfl

theorem PropertyKey.relocate_id (key : PropertyKey) : key.relocate id = key := by
  cases key <;> rfl

/-- Identifiers that stay where they are. -/
theorem Identifier.map_relocate_id (identifiers : List Identifier) :
    identifiers.map (·.relocate id) = identifiers :=
  List.map_id' identifiers

theorem Identifier.map?_relocate_id (identifier : Option Identifier) :
    identifier.map (·.relocate id) = identifier := by
  cases identifier <;> rfl

mutual

theorem Expression.relocate_id : ∀ expression : Expression, expression.relocate id = expression
  | .identifier _ | .literal .. | .thisValue _ => rfl
  | .array elements _ => by
    rw [Expression.relocate, Expression.relocateElements_id elements]
    rfl
  | .object properties _ => by
    rw [Expression.relocate, Property.relocateAll_id properties]
    rfl
  | .function _ _ body _ => by
    rw [Expression.relocate, body.relocate_id, Identifier.map_relocate_id,
      Identifier.map?_relocate_id]
    rfl
  | .unary _ argument _ | .update _ _ argument _ => by
    rw [Expression.relocate, argument.relocate_id]
    rfl
  | .binary _ left right _ | .assignment _ left right _ | .index left right _ => by
    rw [Expression.relocate, left.relocate_id, right.relocate_id]
    rfl
  | .conditional test consequent alternate _ => by
    rw [Expression.relocate, test.relocate_id, consequent.relocate_id, alternate.relocate_id]
    rfl
  | .call callee arguments _ | .new callee arguments _ => by
    rw [Expression.relocate, callee.relocate_id, Expression.relocateAll_id arguments]
    rfl
  | .dot object _ _ => by
    rw [Expression.relocate, object.relocate_id]
    rfl
  | .sequence expressions _ => by
    rw [Expression.relocate, Expression.relocateAll_id expressions]
    rfl

theorem Expression.relocateAll_id :
    ∀ expressions : List Expression, Expression.relocateAll id expressions = expressions
  | [] => rfl
  | expression :: expressions => by
    rw [Expression.relocateAll, expression.relocate_id, Expression.relocateAll_id expressions]

theorem Expression.relocateElements_id :
    ∀ elements : List (Option Expression), Expression.relocateElements id elements = elements
  | [] => rfl
  | none :: elements => by
    rw [Expression.relocateElements, Expression.relocateElements_id elements]
  | some element :: elements => by
    rw [Expression.relocateElements, element.relocate_id, Expression.relocateElements_id elements]

theorem Expression.relocate?_id :
    ∀ expression : Option Expression, Expression.relocate? id expression = expression
  | none => rfl
  | some expression => congrArg some expression.relocate_id

theorem Property.relocate_id : ∀ property : Property, property.relocate id = property
  | ⟨key, value, _, _⟩ => by
    rw [Property.relocate, key.relocate_id, value.relocate_id]
    rfl

theorem Property.relocateAll_id :
    ∀ properties : List Property, Property.relocateAll id properties = properties
  | [] => rfl
  | property :: properties => by
    rw [Property.relocateAll, property.relocate_id, Property.relocateAll_id properties]

theorem Block.relocate_id : ∀ block : Block, block.relocate id = block
  | ⟨body, _⟩ => by
    rw [Block.relocate, Statement.relocateAll_id body]
    rfl

theorem Block.relocate?_id : ∀ block : Option Block, Block.relocate? id block = block
  | none => rfl
  | some block => congrArg some block.relocate_id

theorem VariableDeclarator.relocate_id :
    ∀ declarator : VariableDeclarator, declarator.relocate id = declarator
  | ⟨name, value, _⟩ => by
    rw [VariableDeclarator.relocate, Expression.relocate?_id value]
    rfl

theorem VariableDeclarator.relocateAll_id :
    ∀ declarators : List VariableDeclarator,
      VariableDeclarator.relocateAll id declarators = declarators
  | [] => rfl
  | declarator :: declarators => by
    rw [VariableDeclarator.relocateAll, declarator.relocate_id,
      VariableDeclarator.relocateAll_id declarators]

theorem VariableDeclaration.relocate_id :
    ∀ declaration : VariableDeclaration, declaration.relocate id = declaration
  | ⟨declarators, _⟩ => by
    rw [VariableDeclaration.relocate, VariableDeclarator.relocateAll_id declarators]
    rfl

theorem SwitchCase.relocate_id : ∀ clause : SwitchCase, clause.relocate id = clause
  | ⟨test, consequent, _⟩ => by
    rw [SwitchCase.relocate, Expression.relocate?_id test, Statement.relocateAll_id consequent]
    rfl

theorem SwitchCase.relocateAll_id :
    ∀ clauses : List SwitchCase, SwitchCase.relocateAll id clauses = clauses
  | [] => rfl
  | clause :: clauses => by
    rw [SwitchCase.relocateAll, clause.relocate_id, SwitchCase.relocateAll_id clauses]

theorem CatchClause.relocate_id : ∀ clause : CatchClause, clause.relocate id = clause
  | ⟨_, body, _⟩ => by
    rw [CatchClause.relocate, body.relocate_id]
    rfl

theorem CatchClause.relocate?_id :
    ∀ clause : Option CatchClause, CatchClause.relocate? id clause = clause
  | none => rfl
  | some clause => congrArg some clause.relocate_id

theorem ForHead.relocate_id : ∀ head : ForHead, head.relocate id = head
  | .declaration declaration => congrArg ForHead.declaration declaration.relocate_id
  | .expression expression => congrArg ForHead.expression expression.relocate_id

theorem ForHead.relocate?_id : ∀ head : Option ForHead, ForHead.relocate? id head = head
  | none => rfl
  | some head => congrArg some head.relocate_id

theorem Statement.relocate_id : ∀ statement : Statement, statement.relocate id = statement
  | .empty _ | .debugger _ => rfl
  | .breakTo _ _ | .continueTo _ _ => by
    rw [Statement.relocate, Identifier.map?_relocate_id]
    rfl
  | .block inner => congrArg Statement.block inner.relocate_id
  | .variables declaration => congrArg Statement.variables declaration.relocate_id
  | .expression value _ _ | .throwValue value _ => by
    rw [Statement.relocate, value.relocate_id]
    rfl
  | .function _ _ body _ => by
    rw [Statement.relocate, body.relocate_id, Identifier.map_relocate_id]
    rfl
  | .ifElse test consequent alternate _ => by
    rw [Statement.relocate, test.relocate_id, consequent.relocate_id,
      Statement.relocate?_id alternate]
    rfl
  | .labelled _ body _ => by
    rw [Statement.relocate, body.relocate_id]
    rfl
  | .withObject object body _ | .whileLoop object body _ | .doWhileLoop body object _ => by
    rw [Statement.relocate, object.relocate_id, body.relocate_id]
    rfl
  | .switch discriminant cases _ => by
    rw [Statement.relocate, discriminant.relocate_id, SwitchCase.relocateAll_id cases]
    rfl
  | .returnValue argument _ => by
    rw [Statement.relocate, Expression.relocate?_id argument]
    rfl
  | .tryBlock block handler finalizer _ => by
    rw [Statement.relocate, block.relocate_id, CatchClause.relocate?_id handler,
      Block.relocate?_id finalizer]
    rfl
  | .forLoop init test update body _ => by
    rw [Statement.relocate, ForHead.relocate?_id init, Expression.relocate?_id test,
      Expression.relocate?_id update, body.relocate_id]
    rfl
  | .forInLoop left right body _ => by
    rw [Statement.relocate, left.relocate_id, right.relocate_id, body.relocate_id]
    rfl

theorem Statement.relocateAll_id :
    ∀ statements : List Statement, Statement.relocateAll id statements = statements
  | [] => rfl
  | statement :: statements => by
    rw [Statement.relocateAll, statement.relocate_id, Statement.relocateAll_id statements]

theorem Statement.relocate?_id :
    ∀ statement : Option Statement, Statement.relocate? id statement = statement
  | none => rfl
  | some statement => congrArg some statement.relocate_id

end

end Identity

/-- Values that hold positions. -/
class Located (α : Type) where
  /-- The value at other positions. -/
  relocate : (Position → Position) → α → α
  /-- The nodes of which the value is made, but for names and keys. -/
  nodes : α → List Node

namespace Located

instance : Located Unit := ⟨fun _ => id, fun _ => []⟩

instance : Located Bool := ⟨fun _ => id, fun _ => []⟩

instance : Located String := ⟨fun _ => id, fun _ => []⟩

instance : Located BinaryOperator := ⟨fun _ => id, fun _ => []⟩

instance : Located Position := ⟨id, fun _ => []⟩

instance : Located Span := ⟨Span.relocate, fun _ => []⟩

instance : Located Identifier := ⟨Identifier.relocate, fun _ => []⟩

instance : Located PropertyKey := ⟨PropertyKey.relocate, fun _ => []⟩

instance : Located Expression := ⟨Expression.relocate, fun value => [.expression value]⟩

instance : Located Property := ⟨Property.relocate, fun value => [.property value]⟩

instance : Located Block := ⟨Block.relocate, fun value => [.block value]⟩

instance : Located VariableDeclarator :=
  ⟨VariableDeclarator.relocate, fun value => [.declarator value]⟩

instance : Located VariableDeclaration :=
  ⟨VariableDeclaration.relocate, fun value => [.declaration value]⟩

instance : Located SwitchCase := ⟨SwitchCase.relocate, fun value => [.clause value]⟩

instance : Located CatchClause := ⟨CatchClause.relocate, fun value => [.handler value]⟩

instance : Located ForHead := ⟨ForHead.relocate, fun value => [value.node]⟩

instance : Located Statement := ⟨Statement.relocate, fun value => [.statement value]⟩

variable {α β : Type} [Located α] [Located β]

instance : Located (List α) :=
  ⟨fun move => List.map (relocate move), fun values => values.flatMap nodes⟩

instance : Located (Option α) :=
  ⟨fun move => Option.map (relocate move), fun value => value.toList.flatMap nodes⟩

instance : Located (α × β) :=
  ⟨fun move => Prod.map (relocate move) (relocate move),
    fun value => nodes value.1 ++ nodes value.2⟩

end Located

end EcmaScript
