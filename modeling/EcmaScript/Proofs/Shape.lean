import EcmaScript.Proofs.Jumps
import EcmaScript.Tree.Estree

/-!
# The shape of an accepted tree

Some trees can be built that no text is read as: a sequence of one expression, an assignment to a
call, a `switch` statement with two default clauses. Each production of the grammar keeps to the
shape of the nodes that it makes, so that whoever is given the tree of a text can rely on all of it.
What the types of the tree leave no choice about is stated of the ESTree form, where it is written
out.
-/

namespace EcmaScript

/-- The value of a field of an object. -/
def Json.field? (document : Json) (name : String) : Option Json :=
  match document with
  | .object fields => fields.lookup name
  | _ => none

/-- The document is a node of a type. -/
def Json.HasType (document : Json) (type : String) : Prop :=
  document.field? "type" = some (.string type)

theorem Json.hasType_node {type other : String} {fields : List (String × Json)} {span : Span} :
    (Json.node type fields span).HasType other ↔ type = other := by
  simp [HasType, node, field?]

/-- The step goes to a statement of a list: that of a block, of a function body or of a clause. -/
def Step.entersList (step : Step) : Bool :=
  match step.parent, step.child with
  | .block _, .statement _ => true
  | .clause _, .statement _ => true
  | .statement (.block _), .statement _ => true
  | _, _ => false

/-- What the nodes of a program look like, beyond what their types say. -/
structure Program.IsWellFormed (program : Program) : Prop where
  sequences : ∀ path expressions span,
    program.Occurs path (.expression (.sequence expressions span)) → 2 ≤ expressions.length
  assignments : ∀ path operator target value span,
    program.Occurs path (.expression (.assignment operator target value span)) →
    target.isReference = true
  updates : ∀ path operator placement target span,
    program.Occurs path (.expression (.update operator placement target span)) →
    target.isReference = true
  forInTargets : ∀ path target right body span,
    program.Occurs path (.statement (.forInLoop (.expression target) right body span)) →
    target.isReference = true
  /-- A property that is not computed is a name. -/
  members : ∀ path item, program.Occurs path (.expression item) →
    item.estree.HasType "MemberExpression" →
    item.estree.field? "computed" = some (.boolean false) →
    ∃ property, item.estree.field? "property" = some property ∧ property.HasType "Identifier"
  variableStatements : ∀ path declaration,
    program.Occurs path (.statement (.variables declaration)) → declaration.declarators ≠ []
  declarations : ∀ path declaration, program.Occurs path (.declaration declaration) →
    declaration.declarators ≠ []
  forInBindings : ∀ path declaration right body span,
    program.Occurs path (.statement (.forInLoop (.declaration declaration) right body span)) →
    declaration.declarators.length = 1
  defaults : ∀ path discriminant clauses span,
    program.Occurs path (.statement (.switch discriminant clauses span)) →
    clauses.countP (·.test.isNone) ≤ 1
  tries : ∀ path block handler finalizer span,
    program.Occurs path (.statement (.tryBlock block handler finalizer span)) →
    handler.isSome = true ∨ finalizer.isSome = true
  getters : ∀ path property, program.Occurs path (.property property) → property.kind = .get →
    ∃ body span, property.value = .function none [] body span
  setters : ∀ path property, program.Occurs path (.property property) → property.kind = .set →
    ∃ parameter body span, property.value = .function none [parameter] body span
  /-- The marks of newer forms of properties are there, and are never set. -/
  properties : ∀ path property, program.Occurs path (.property property) →
    ∀ mark ∈ ["method", "shorthand", "computed"],
      property.estree.field? mark = some (.boolean false)
  /-- Regular expressions have their parts beside their value, and no other literals do. -/
  literals : ∀ path value raw span, program.Occurs path (.expression (.literal value raw span)) →
    ((value.estree raw span).field? "regex" ≠ none ↔
      ∃ pattern flags, value = .regularExpression pattern flags)
  keys : ∀ path value raw span, program.Occurs path (.key (.literal value raw span)) →
    (∃ text, value = .string text) ∨ ∃ number, value = .number number
  /-- A function is declared in a list of statements, or at the outermost level. -/
  functions : ∀ path name parameters body span,
    program.Occurs path (.statement (.function name parameters body span)) →
    ∀ step ∈ path.head?, step.entersList = true

variable {scope : Scope} {tokens : List Token} {next : Token}

/-! ### What the rules say of their phrases -/

theorem Reads.separated_ne_nil {values : List Expression}
    (reads : Reads scope (.separated values) tokens next) : values ≠ [] := by
  cases reads <;> exact List.cons_ne_nil _ _

theorem Reads.declarators_ne_nil {declarators : List VariableDeclarator}
    (reads : Reads scope (.declarators declarators) tokens next) : declarators ≠ [] := by
  cases reads <;> exact List.cons_ne_nil _ _

theorem Reads.declaration_ne_nil {declaration : VariableDeclaration}
    (reads : Reads scope (.declaration declaration) tokens next) :
    declaration.declarators ≠ [] := by
  cases reads with
  | declaration _ declarators => exact declarators.declarators_ne_nil

/-- There is no default clause after another one. -/
theorem Reads.countP_clauses {seenDefault : Bool} {clauses : List SwitchCase}
    (reads : Reads scope (.clauses seenDefault clauses) tokens next) :
    seenDefault.toNat + clauses.countP (·.test.isNone) ≤ 1 := by
  generalize same : Phrase.clauses seenDefault clauses = phrase at reads
  induction reads generalizing seenDefault clauses with
  | clausesNone =>
    cases same
    simpa using Bool.toNat_le _
  | @clausesMore _ _ _ _ _ clause _ _ _ once _ _ _ ih =>
    cases same
    have others := ih rfl
    rw [List.countP_cons]
    cases test : clause.test with
    | none =>
      rw [once test] at others ⊢
      simpa [test, Nat.add_comm] using others
    | some => simpa [test] using others
  | _ => cases same

/-- A statement by itself declares no function. -/
theorem Reads.not_function {name : Identifier} {parameters : List Identifier} {body : Block}
    {span : Span} :
    ¬ Reads scope (.statement (.function name parameters body span)) tokens next :=
  nofun

theorem Scope.HasKey.string_or_number {token : Token} {value : Literal} {raw : String} {span : Span}
    (hasKey : scope.HasKey token (.literal value raw span)) :
    (∃ text, value = .string text) ∨ ∃ number, value = .number number := by
  cases hasKey with
  | literal _ kind found =>
    revert kind found
    rw [Token.kind]
    cases token.lexeme with
    | string text => exact fun _ found => .inl ⟨text, (Option.some.inj found).symm⟩
    | number number => exact fun _ found => .inr ⟨number, (Option.some.inj found).symm⟩
    | _ => simp [Lexeme.kind]

namespace Node.IsRead

theorem sequence {expressions : List Expression} {span : Span}
    (read : (Node.expression (.sequence expressions span)).IsRead scope tokens next) :
    2 ≤ expressions.length := by
  obtain ⟨level, reads⟩ := read
  cases reads with
  | sequence _ _ others =>
    exact Nat.succ_le_succ (List.length_pos_iff.mpr others.separated_ne_nil)

theorem assignment {operator : AssignmentOperator} {target value : Expression} {span : Span}
    (read : (Node.expression (.assignment operator target value span)).IsRead scope tokens next) :
    target.isReference = true := by
  obtain ⟨level, reads⟩ := read
  cases reads with
  | assignment _ _ allows => exact allows.1

theorem update {operator : UpdateOperator} {placement : Placement} {target : Expression}
    {span : Span}
    (read : (Node.expression (.update operator placement target span)).IsRead scope tokens next) :
    target.isReference = true := by
  obtain ⟨level, reads⟩ := read
  cases reads with
  | updateBefore _ _ allows => exact allows.1
  | updateAfter _ _ _ allows => exact allows.1

theorem property_value {property : Property}
    (read : (Node.property property).IsRead scope tokens next) (accessor : property.kind ≠ .init) :
    ∃ parameters body span, property.value = .function none parameters body span ∧
      parameters.length = if property.kind = .get then 0 else 1 := by
  cases read with
  | value => exact absurd rfl accessor
  | accessor _ _ _ count => exact ⟨_, _, _, rfl, count⟩

end Node.IsRead

/-- The statements directly in a statement that is no block. -/
def Statement.bodies : Statement → List Statement
  | .ifElse _ consequent alternate _ => consequent :: alternate.toList
  | .labelled _ body _ | .withObject _ body _ | .whileLoop _ body _ | .doWhileLoop body _ _
  | .forLoop _ _ _ body _ | .forInLoop _ _ body _ => [body]
  | _ => []

theorem ForHead.node_ne_statement (head : ForHead) (item : Statement) :
    head.node ≠ .statement item := by
  cases head <;> exact nofun

/-- A statement in a statement is in a block, or directly in it. -/
theorem Statement.mem_children {item inner : Statement}
    (member : Node.statement inner ∈ item.children) :
    (∃ block, item = .block block) ∨ inner ∈ item.bodies := by
  cases item with
  | block inner => exact .inl ⟨inner, rfl⟩
  | forLoop init test update body span =>
    right
    simpa [children, bodies, ForHead.node_ne_statement] using member
  | forInLoop left right body span =>
    right
    simpa [children, bodies, (ForHead.node_ne_statement left _).symm] using member
  | ifElse test consequent alternate span =>
    right
    simpa [children, bodies] using member
  | labelled | withObject | whileLoop | doWhileLoop =>
    right
    simpa [children, bodies] using member
  | _ => simp [children] at member

theorem Statement.mem_children_of_bodies {item inner : Statement} (member : inner ∈ item.bodies) :
    Node.statement inner ∈ item.children := by
  cases item with
  | ifElse | labelled | withObject | whileLoop | doWhileLoop | forLoop | forInLoop =>
    simp_all [children, bodies]
  | _ => exact absurd member List.not_mem_nil

/-- What is directly in a statement is a statement by itself. -/
theorem Reads.statement_of_mem_bodies {item inner : Statement}
    (reads : Reads scope (.statement item) tokens next) (member : inner ∈ item.bodies) :
    ∃ scope piece next, Reads scope (.statement inner) piece next ∧ piece <:+: tokens := by
  have behind {front piece whole : List Token} (inside : piece <:+: whole) :
      piece <:+: front ++ whole := inside.trans (List.suffix_append front whole).isInfix
  cases reads with
  | ifWithout _ _ _ consequent =>
    obtain rfl := List.mem_singleton.mp member
    exact ⟨_, _, _, consequent, List.infix_cons (behind List.infix_rfl)⟩
  | ifWith _ _ _ consequent _ alternate =>
    rcases List.mem_cons.mp member with rfl | later
    · exact ⟨_, _, _, consequent, List.infix_cons (behind (List.prefix_append _ _).isInfix)⟩
    · obtain rfl := List.mem_singleton.mp later
      refine ⟨_, _, _, alternate, List.infix_cons (behind (behind ?_))⟩
      exact List.infix_cons List.infix_rfl
  | whileLoop _ _ _ body | withObject _ _ _ _ body =>
    obtain rfl := List.mem_singleton.mp member
    exact ⟨_, _, _, body, List.infix_cons (behind List.infix_rfl)⟩
  | doWhileLoop _ body =>
    obtain rfl := List.mem_singleton.mp member
    exact ⟨_, _, _, body, List.infix_cons (List.prefix_append _ _).isInfix⟩
  | forLoop _ _ _ _ _ _ _ _ body =>
    obtain rfl := List.mem_singleton.mp member
    refine ⟨_, _, _, body, List.infix_cons (List.infix_cons (behind (List.infix_cons ?_)))⟩
    exact behind (List.infix_cons (behind (List.infix_cons List.infix_rfl)))
  | forInLoop _ _ _ _ _ _ _ body =>
    obtain rfl := List.mem_singleton.mp member
    refine ⟨_, _, _, body, List.infix_cons (List.infix_cons (behind (List.infix_cons ?_)))⟩
    exact behind (List.infix_cons List.infix_rfl)
  | labelled _ _ _ body =>
    obtain rfl := List.mem_singleton.mp member
    exact ⟨_, _, _, body, List.infix_cons (List.infix_cons List.infix_rfl)⟩
  | _ => exact absurd member List.not_mem_nil

/-- The same of a statement that is read in any way. -/
theorem Node.IsRead.statement_of_mem_bodies {item inner : Statement}
    (read : (Node.statement item).IsRead scope tokens next) (inside : inner ∈ item.bodies) :
    ∃ scope piece next, Reads scope (.statement inner) piece next ∧ piece <:+: tokens := by
  refine (read.reads_statement ?_ ?_).statement_of_mem_bodies inside
  · rintro _ _ _ _ rfl
    exact absurd inside List.not_mem_nil
  · rintro _ _ _ rfl
    exact absurd inside List.not_mem_nil

/-- Only lists of statements have a function among them. -/
theorem Node.IsRead.entersList {node : Node} {name : Identifier} {parameters : List Identifier}
    {body : Block} {span : Span} (read : node.IsRead scope tokens next)
    (member : .statement (.function name parameters body span) ∈ node.children) :
    (⟨node, .statement (.function name parameters body span)⟩ : Step).entersList = true := by
  cases node with
  | statement item =>
    rcases Statement.mem_children member with ⟨block, rfl⟩ | inside
    · rfl
    · obtain ⟨_, _, _, alone, _⟩ := read.statement_of_mem_bodies inside
      exact absurd alone Reads.not_function
  | block | clause => rfl
  | expression item => cases item <;> simp [Node.children, Expression.children] at member
  | _ => simp [Node.children] at member

section Parse

variable {source : String} {options : Options} {program : Program}

/-- A node of an accepted text is read. -/
theorem exists_read_of_parse {path : List Step} {node : Node}
    (accepted : parse source options = .ok program) (occurs : program.Occurs path node) :
    ∃ scope tokens next, node.IsRead scope tokens next := by
  obtain ⟨scope, tokens, next, read, _⟩ := exists_scope_of_parse accepted occurs
  exact ⟨scope, tokens, next, read⟩

/-- A statement of an accepted text that is no declaration and no directive is read by a rule of its
own. -/
theorem exists_reads_of_parse {path : List Step} {item : Statement}
    (accepted : parse source options = .ok program)
    (occurs : program.Occurs path (.statement item))
    (noFunction : ∀ name parameters body span, item ≠ .function name parameters body span)
    (noDirective : ∀ value text span, item ≠ .expression value (some text) span) :
    ∃ scope tokens next, Reads scope (.statement item) tokens next := by
  obtain ⟨scope, tokens, next, read⟩ := exists_read_of_parse accepted occurs
  exact ⟨scope, tokens, next, read.reads_statement noFunction noDirective⟩

/-- The ESTree form of an expression without computed property has a name there. -/
theorem Expression.member_of_estree {item : Expression}
    (typed : item.estree.HasType "MemberExpression")
    (plain : item.estree.field? "computed" = some (.boolean false)) :
    ∃ property, item.estree.field? "property" = some property ∧
      property.HasType "Identifier" := by
  cases item with
  | dot object property span => exact ⟨property.estree, rfl, rfl⟩
  | index => cases plain
  | binary operator => cases operator <;> exact absurd (Json.hasType_node.mp typed) (by decide)
  | _ => exact absurd (Json.hasType_node.mp typed) (by decide)

/-- The tree of an accepted text is well formed. -/
theorem wellFormed_of_parse (accepted : parse source options = .ok program) :
    program.IsWellFormed where
  sequences path expressions span occurs := by
    obtain ⟨scope, tokens, next, read⟩ := exists_read_of_parse accepted occurs
    exact read.sequence
  assignments path operator target value span occurs := by
    obtain ⟨scope, tokens, next, read⟩ := exists_read_of_parse accepted occurs
    exact read.assignment
  updates path operator placement target span occurs := by
    obtain ⟨scope, tokens, next, read⟩ := exists_read_of_parse accepted occurs
    exact read.update
  forInTargets path target right body span occurs := by
    obtain ⟨scope, tokens, next, reads⟩ := exists_reads_of_parse accepted occurs nofun nofun
    cases reads with
    | forInLoop _ _ _ _ allows => exact allows.1
  members path item occurs typed plain := Expression.member_of_estree typed plain
  variableStatements path declaration occurs := by
    obtain ⟨scope, tokens, next, reads⟩ := exists_reads_of_parse accepted occurs nofun nofun
    cases reads with
    | variableStatement declaration => exact declaration.declaration_ne_nil
  declarations path declaration occurs := by
    obtain ⟨scope, tokens, next, read⟩ := exists_read_of_parse accepted occurs
    exact Reads.declaration_ne_nil read
  forInBindings path declaration right body span occurs := by
    obtain ⟨scope, tokens, next, reads⟩ := exists_reads_of_parse accepted occurs nofun nofun
    cases reads with
    | forInLoop _ _ _ _ allows => exact allows
  defaults path discriminant clauses span occurs := by
    obtain ⟨scope, tokens, next, reads⟩ := exists_reads_of_parse accepted occurs nofun nofun
    cases reads with
    | switch _ _ _ clauses =>
      simpa using clauses.countP_clauses
  tries path block handler finalizer span occurs := by
    obtain ⟨scope, tokens, next, reads⟩ := exists_reads_of_parse accepted occurs nofun nofun
    cases reads with
    | tryBlock _ _ _ _ _ _ handled => exact handled
  getters path property occurs kind := by
    obtain ⟨scope, tokens, next, read⟩ := exists_read_of_parse accepted occurs
    obtain ⟨parameters, body, span, value, count⟩ := read.property_value (by simp [kind])
    rw [if_pos kind, List.length_eq_zero_iff] at count
    exact ⟨body, span, count ▸ value⟩
  setters path property occurs kind := by
    obtain ⟨scope, tokens, next, read⟩ := exists_read_of_parse accepted occurs
    obtain ⟨parameters, body, span, value, count⟩ := read.property_value (by simp [kind])
    rw [if_neg (by simp [kind]), List.length_eq_one_iff] at count
    obtain ⟨parameter, rfl⟩ := count
    exact ⟨parameter, body, span, value⟩
  properties path property occurs mark member := by
    obtain ⟨key, value, kind, span⟩ := property
    simp only [List.mem_cons, List.not_mem_nil, or_false] at member
    rcases member with rfl | rfl | rfl <;> rfl
  literals path value raw span occurs := by
    cases value <;> simp [Literal.estree, Literal.regexFields, Json.node, Json.field?, List.lookup_cons]
  keys path value raw span occurs := by
    obtain ⟨scope, tokens, next, token, rfl, hasKey⟩ := exists_read_of_parse accepted occurs
    exact hasKey.string_or_number
  functions path name parameters body span occurs step first := by
    obtain ⟨statement, member, occurs⟩ := occurs
    cases occurs with
    | root => cases first
    | child above member =>
      cases first
      obtain ⟨scope, tokens, next, read⟩ := exists_read_of_parse accepted ⟨statement, ‹_›, above⟩
      exact read.entersList member

/-- A text with a sequence, an accessor, a regular expression and a default clause is accepted. -/
theorem wellFormed_of_switch :
    ∃ program,
      parse "switch (a.b = c++, d) { default: function f() {} ({ get e() {}, 1: /g/ }) }" {} =
        .ok program ∧ program.IsWellFormed := by
  obtain ⟨program, accepted⟩ := exists_of_toBool (by decide +kernel :
    (parse "switch (a.b = c++, d) { default: function f() {} ({ get e() {}, 1: /g/ }) }"
      {}).toBool = true)
  exact ⟨program, accepted, wellFormed_of_parse accepted⟩

end Parse

end EcmaScript
