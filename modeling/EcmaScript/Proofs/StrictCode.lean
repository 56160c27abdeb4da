import EcmaScript.Proofs.Jumps
import EcmaScript.Proofs.LegacyEscape

/-!
# Strict code

The option that makes a whole script strict makes no other difference than that some nodes are
refused. The directive `use strict` makes code strict from the middle of a body on: what comes after
it is read in a strict scope, and so are the functions in it, down to the last node.
-/

namespace EcmaScript

/-- Strict code may contain the statement, with all that is in it. -/
def Statement.IsStrictlyAllowed (statement : Statement) : Prop :=
  (Node.statement statement).Everywhere fun _ node => node.isStrictlyAllowed = true

/-- Strict code may contain all of the program. -/
def Program.IsStrictlyAllowed (program : Program) : Prop :=
  ∀ statement ∈ program.body, statement.IsStrictlyAllowed

/-- The bodies of a program: that of the script, and those of its functions. -/
inductive Program.HasBody (program : Program) : List Statement → Prop where
  | script : HasBody program program.body
  | function {step : Step} {path : List Step} {body : Block} :
      program.Occurs (step :: path) (.block body) → step.entersFunction = true →
      HasBody program body.body

/-- All that comes after a directive `use strict` in the same body may stand in strict code. -/
def Program.HonoursDirectives (program : Program) : Prop :=
  ∀ body, program.HasBody body → ∀ front value span back,
    body = front ++ .expression value (some "use strict") span :: back →
    ∀ statement ∈ back, statement.IsStrictlyAllowed

variable {scope : Scope} {tokens : List Token} {next : Token}

theorem Scope.strict_along {scope : Scope} (path : List Step) :
    (scope.along path).context.strict = scope.context.strict := by
  induction path with
  | nil => rfl
  | cons step path ih =>
    rw [along, List.foldr_cons, Step.enter]
    split
    · exact ih
    · exact ih

section Allowed

/-- A literal is read from a token that tells of its legacy escapes. -/
theorem Token.Faithful.allowed {token : Token} {value : Literal} (faithful : token.Faithful)
    (found : token.lexeme.literal? = some value) (allows : scope.AllowsLiteral token)
    (strict : scope.context.strict = true) (span : Span) :
    Node.isStrictlyAllowed (.expression (.literal value token.text span)) = true := by
  rw [Grammar.isStrictlyAllowed_literal token.text span found, ← faithful, allows strict]
  rfl

theorem Reads.isStrictlyAllowed_makes {level : Level} {value : Expression}
    (reads : Reads scope (.makes level value) tokens next) (strict : scope.context.strict = true)
    (faithful : ∀ token ∈ tokens, token.Faithful) :
    Node.isStrictlyAllowed (.expression value) = true := by
  cases reads with
  | reference refers => simp [Node.isStrictlyAllowed, refers.2.2 strict]
  | literal found allows => exact (faithful _ (.head _)).allowed found allows strict _
  | updateBefore _ _ allows => simp [Node.isStrictlyAllowed, allows.2 strict]
  | updateAfter _ _ _ allows => simp [Node.isStrictlyAllowed, allows.2 strict]
  | @unary _ _ _ _ argument operator _ _ allows =>
    cases operator with
    | delete => simp [Node.isStrictlyAllowed, allows rfl strict]
    | _ => rfl
  | assignment _ _ allows => simp [Node.isStrictlyAllowed, allows.2 strict]
  | _ => rfl

/-- Whatever is read in a strict scope may stand in strict code. -/
theorem Node.IsRead.isStrictlyAllowed {node : Node} (read : node.IsRead scope tokens next)
    (strict : scope.context.strict = true) (faithful : ∀ token ∈ tokens, token.Faithful) :
    node.isStrictlyAllowed = true := by
  cases node with
  | expression item =>
    obtain ⟨level, reads⟩ := read
    exact reads.isStrictlyAllowed_makes strict faithful
  | key item =>
    obtain ⟨token, rfl, hasKey⟩ := read
    cases hasKey with
    | literal value _ found allows =>
      have allowed := (faithful token (.head _)).allowed found allows strict token.span
      cases value <;> exact allowed
    | name => rfl
  | binding item =>
    obtain ⟨token, rfl, refers, allowed⟩ := read
    simp [Node.isStrictlyAllowed, refers.2.2 strict, allowed strict]
  | label item =>
    obtain ⟨token, rfl, refers⟩ := read
    simp [Node.isStrictlyAllowed, refers.2.2 strict]
  | statement item =>
    rcases read.cases_statement with reads | ⟨_, _, _, _, rfl⟩ | ⟨_, _, _, rfl⟩
    · cases reads with
      | withObject _ sloppy => simp [strict] at sloppy
      | @forInLoop _ _ _ _ _ _ _ _ _ head _ _ _ _ _ _ allows =>
        cases head with
        | declaration => rfl
        | expression target => simp [Node.isStrictlyAllowed, allows.2 strict]
      | _ => rfl
    · rfl
    · rfl
  | _ => rfl

end Allowed

section Directives

/-- The statements of a body read in a strict scope may stand in strict code. -/
theorem Reads.allowed_body {statements : List Statement}
    (reads : Reads scope (.body statements) tokens next) (strict : scope.context.strict = true)
    (faithful : ∀ token ∈ tokens, token.Faithful) :
    ∀ statement ∈ statements, statement.IsStrictlyAllowed := by
  intro statement member path node occurs
  obtain ⟨inner, piece, follower, agrees, read, inside⟩ := reads.occurs_body member occurs
  refine read.isStrictlyAllowed (agrees.strict ?_) fun token within => ?_
  · rw [Scope.strict_along, strict]
  · exact faithful token (inside.subset within)

/-- Only the directives at its beginning mark statements of a body as directives. -/
theorem Reads.directive_notMem {statements : List Statement}
    (reads : Reads scope (.statements statements) tokens next) {value : Expression} {text : String}
    {span : Span} : Statement.expression value (some text) span ∉ statements := by
  generalize same : Phrase.statements statements = phrase at reads
  induction reads generalizing statements with
  | statementsNone =>
    cases same
    exact List.not_mem_nil
  | statementsMore item _ _ _ ih =>
    cases same
    intro member
    rcases List.mem_cons.mp member with rfl | later
    · cases item with
      | item _ _ reads => cases reads
    · exact ih rfl later
  | _ => cases same

/-- What comes after a directive `use strict` in a body may stand in strict code. -/
theorem Reads.allowed_after {statements : List Statement}
    (reads : Reads scope (.body statements) tokens next)
    (faithful : ∀ token ∈ tokens, token.Faithful) {front back : List Statement}
    {value : Expression} {span : Span}
    (same : statements = front ++ .expression value (some "use strict") span :: back) :
    ∀ statement ∈ back, statement.IsStrictlyAllowed := by
  generalize whole : Phrase.body statements = phrase at reads
  induction reads generalizing statements front with
  | @directed _ _ _ tokens others text _ _ _ _ _ readsRest _ ih =>
    cases whole
    have faithfulRest : ∀ token ∈ others, Token.Faithful token :=
      fun token member => faithful token (List.mem_append_right _ member)
    cases front with
    | nil =>
      cases same
      refine readsRest.allowed_body ?_ faithfulRest
      rw [Scope.afterDirective, if_pos rfl]
    | cons first front =>
      cases same
      exact ih faithfulRest rfl rfl
  | undirected _ _ readsStatements =>
    cases whole
    rw [same] at readsStatements
    exact absurd (List.mem_append_right _ (.head _)) readsStatements.directive_notMem
  | _ => cases whole

theorem Node.IsRead.allowed_after {body : Block} (read : (Node.block body).IsRead scope tokens next)
    (faithful : ∀ token ∈ tokens, token.Faithful) {front back : List Statement}
    {value : Expression} {span : Span}
    (same : body.body = front ++ .expression value (some "use strict") span :: back) :
    ∀ statement ∈ back, statement.IsStrictlyAllowed := by
  rcases read with reads | reads
  · cases reads with
    | block _ readsStatements =>
      subst same
      exact absurd (List.mem_append_right _ (.head _)) readsStatements.directive_notMem
  · cases reads with
    | functionBody _ readsBody =>
      refine readsBody.allowed_after (fun token member => faithful token ?_) same
      exact .tail _ (List.mem_append_left _ member)

end Directives

section Parse

variable {source : String} {options : Options} {program : Program}

/-- The tokens of an accepted text are faithful. -/
theorem State.faithful_of_parse {after : State}
    (accepted : (ofSource source options).parse = (.ok program, after)) :
    ∀ token ∈ after.consumed, token.Faithful := by
  obtain ⟨first, begins, isScript⟩ := isScript_of_parse accepted
  apply isScript.passes.faithful
  rcases begins.scanned with scanned | scanned
  · exact Scan.faithful_of_token scanned
  · exact Scan.faithful_of_token scanned

theorem honoursDirectives_of_parse (accepted : parse source options = .ok program) :
    program.HonoursDirectives := by
  obtain ⟨after, run⟩ := exists_of_parse accepted
  have reads := State.reads_of_parse run
  have faithful := State.faithful_of_parse run
  intro body isBody front value span back same
  cases isBody with
  | script => exact reads.allowed_after faithful same
  | @function step path block occurs =>
    obtain ⟨statement, member, occurs⟩ := occurs
    obtain ⟨scope, piece, follower, _, read, inside⟩ := reads.occurs_body member occurs
    exact read.allowed_after (fun token within => faithful token (inside.subset within)) same

theorem Restriction.accepts_strict :
    (∀ statement ∈ program.body,
      Restriction.Accepts { strict := true } false (.statement statement)) ↔
      program.IsStrictlyAllowed := by
  simp [Accepts, permits, Program.IsStrictlyAllowed, Statement.IsStrictlyAllowed]

/-- A text is accepted as strict code just when it is accepted otherwise, as the same program, and
strict code may contain all of that. In any accepted program what comes after a directive
`use strict` may stand in strict code. -/
theorem strict_of_parse (source : String) (options : Options) (program : Program) :
    (parse source { options with strict := true } = .ok program ↔
      parse source { options with strict := false } = .ok program ∧ program.IsStrictlyAllowed) ∧
      (parse source { options with strict := false } = .ok program →
        program.HonoursDirectives) := by
  constructor
  · rw [← Restriction.accepts_strict]
    have exact := parse_restrict { strict := true } source { options with strict := false } program
    rw [Restriction.restrict, Bool.not_false, Bool.and_true] at exact
    exact exact
  · exact honoursDirectives_of_parse

/-- A `with` statement is not for strict code, and a function may make itself strict. -/
theorem strict_of_withStatement :
    (∃ program, parse "with (a) b;" {} = .ok program ∧ ¬ program.IsStrictlyAllowed) ∧
      ∃ program, parse "function f() \x7b 'use strict'; return 1; \x7d" {} = .ok program ∧
        program.HonoursDirectives := by
  constructor
  · have refused : (parse "with (a) b;" { strict := true }).toBool = false := by decide +kernel
    obtain ⟨program, accepted⟩ :=
      exists_of_toBool (by decide +kernel : (parse "with (a) b;" {}).toBool = true)
    refine ⟨program, accepted, fun allowed => ?_⟩
    rw [((strict_of_parse "with (a) b;" {} program).1).mpr ⟨accepted, allowed⟩] at refused
    contradiction
  · obtain ⟨program, accepted⟩ := exists_of_toBool (by decide +kernel :
      (parse "function f() \x7b 'use strict'; return 1; \x7d" {}).toBool = true)
    exact ⟨program, accepted, (strict_of_parse _ {} program).2 accepted⟩

end Parse

end EcmaScript
