import EcmaScript.Proofs.Descent
import EcmaScript.Proofs.ScriptRestriction
import EcmaScript.Proofs.ScriptSoundness

/-!
# Jumps

A jump is read in a scope that knows the loops, clauses and labels around it, and that scope agrees
with the path to the jump in the tree. So every jump that is accepted has the target that it needs
in its own function. Whether `return` may stand outside functions makes no other difference than
that such statements are refused.
-/

namespace EcmaScript

variable {scope : Scope} {tokens : List Token} {next : Token}

/-- A statement is read by a rule of its own, or it declares a function, or it is a directive. -/
theorem Node.IsRead.cases_statement {item : Statement}
    (read : (Node.statement item).IsRead scope tokens next) :
    Reads scope (.statement item) tokens next ∨
      (∃ name parameters body span, item = .function name parameters body span) ∨
      ∃ value text span, item = .expression value (some text) span := by
  rcases read with reads | reads | ⟨text, value, span, rfl, _⟩
  · exact .inl reads
  · cases reads with
    | functionDeclaration => exact .inr (.inl ⟨_, _, _, _, rfl⟩)
    | item _ _ reads => exact .inl reads
  · exact .inr (.inr ⟨_, _, _, rfl⟩)

/-- A statement that is neither a function nor a directive is read by a rule of its own. -/
theorem Node.IsRead.reads_statement {item : Statement}
    (read : (Node.statement item).IsRead scope tokens next)
    (noFunction : ∀ name parameters body span, item ≠ .function name parameters body span)
    (noDirective : ∀ value text span, item ≠ .expression value (some text) span) :
    Reads scope (.statement item) tokens next := by
  rcases read.cases_statement with reads | ⟨_, _, _, _, same⟩ | ⟨_, _, _, same⟩
  · exact reads
  · exact absurd same (noFunction _ _ _ _)
  · exact absurd same (noDirective _ _ _)

theorem Scope.HasJumpLabel.contains {label : Option Identifier}
    (hasLabel : scope.HasJumpLabel label tokens next) :
    ∀ name ∈ label, scope.labels.contains name.name = true := by
  intro name member
  cases hasLabel with
  | none => contradiction
  | some _ _ known =>
    cases member
    exact known

namespace Node.IsRead

variable {label : Option Identifier} {span : Span}

theorem breakTo (read : (Node.statement (.breakTo label span)).IsRead scope tokens next) :
    (scope.context.inLoop = true ∨ scope.context.inSwitch = true) ∧
      ∀ name ∈ label, scope.labels.contains name.name = true := by
  cases read.reads_statement nofun nofun with
  | breakTo _ inside hasLabel => exact ⟨inside, hasLabel.contains⟩

theorem continueTo (read : (Node.statement (.continueTo label span)).IsRead scope tokens next) :
    scope.context.inLoop = true ∧ ∀ name ∈ label, scope.labels.contains name.name = true := by
  cases read.reads_statement nofun nofun with
  | continueTo _ inside hasLabel => exact ⟨inside, hasLabel.contains⟩

theorem labelled {name : Identifier} {body : Statement}
    (read : (Node.statement (.labelled name body span)).IsRead scope tokens next) :
    scope.labels.contains name.name = false := by
  cases read.reads_statement nofun nofun with
  | labelled _ _ new => exact new

end Node.IsRead

section Parse

variable {source : String} {options : Options} {program : Program} {path : List Step}

/-- A node of an accepted text is read in a scope with the surroundings that the path tells. -/
theorem exists_scope_of_parse {node : Node} (accepted : parse source options = .ok program)
    (occurs : program.Occurs path node) :
    ∃ scope tokens next, node.IsRead scope tokens next ∧
      scope.context.inLoop = Step.inLoop path ∧ scope.context.inSwitch = Step.inClause path ∧
      scope.labels = ⟨Step.labels path⟩ := by
  obtain ⟨after, run⟩ := exists_of_parse accepted
  obtain ⟨statement, member, occurs⟩ := occurs
  obtain ⟨scope, tokens, next, agrees, read, _⟩ :=
    (State.reads_of_parse run).occurs_body member occurs
  refine ⟨scope, tokens, next, read, ?_, ?_, ?_⟩
  · rw [agrees.inLoop, Scope.inLoop_along path rfl]
  · rw [agrees.inSwitch, Scope.inSwitch_along path rfl]
  · rw [agrees.labels, Scope.labels_along path rfl]

theorem mem_labels_of_contains {scope : Scope} {name : String}
    (same : scope.labels = ⟨Step.labels path⟩) :
    scope.labels.contains name = true ↔ name ∈ Step.labels path := by
  rw [same, Labels.contains, List.contains_iff_mem]

/-- Every jump of a program has its target in the same function. -/
structure Program.JumpsLegally (program : Program) : Prop where
  breaks : ∀ path label span, program.Occurs path (.statement (.breakTo label span)) →
    Step.inLoop path = true ∨ Step.inClause path = true
  continues : ∀ path label span, program.Occurs path (.statement (.continueTo label span)) →
    Step.inLoop path = true
  breakLabels : ∀ path label span, program.Occurs path (.statement (.breakTo (some label) span)) →
    label.name ∈ Step.labels path
  continueLabels : ∀ path label span,
    program.Occurs path (.statement (.continueTo (some label) span)) →
    label.name ∈ Step.labels path
  /-- No statement has a label of a statement around it. -/
  newLabels : ∀ path label body span,
    program.Occurs path (.statement (.labelled label body span)) →
    label.name ∉ Step.labels path

/-- Every `return` of a program is in a function. -/
def Program.ReturnsInFunctions (program : Program) : Prop :=
  ∀ path argument span, program.Occurs path (.statement (.returnValue argument span)) →
    Step.inFunction path = true

theorem jumpsLegally_of_parse (accepted : parse source options = .ok program) :
    program.JumpsLegally := by
  constructor
  · intro path label span occurs
    obtain ⟨scope, tokens, next, read, inLoop, inSwitch, _⟩ :=
      exists_scope_of_parse accepted occurs
    rw [← inLoop, ← inSwitch]
    exact read.breakTo.1
  · intro path label span occurs
    obtain ⟨scope, tokens, next, read, inLoop, _⟩ := exists_scope_of_parse accepted occurs
    rw [← inLoop]
    exact read.continueTo.1
  · intro path label span occurs
    obtain ⟨scope, tokens, next, read, _, _, labels⟩ := exists_scope_of_parse accepted occurs
    exact (mem_labels_of_contains labels).mp (read.breakTo.2 label rfl)
  · intro path label span occurs
    obtain ⟨scope, tokens, next, read, _, _, labels⟩ := exists_scope_of_parse accepted occurs
    exact (mem_labels_of_contains labels).mp (read.continueTo.2 label rfl)
  · intro path label body span occurs member
    obtain ⟨scope, tokens, next, read, _, _, labels⟩ := exists_scope_of_parse accepted occurs
    have known := (mem_labels_of_contains labels).mpr member
    rw [read.labelled] at known
    contradiction

theorem Restriction.accepts_noReturn :
    (∀ statement ∈ program.body,
      Restriction.Accepts { noReturn := true } false (.statement statement)) ↔
      program.ReturnsInFunctions := by
  constructor
  · rintro accepted path argument span ⟨statement, member, occurs⟩
    simpa [permits, Node.isReturn] using accepted statement member path _ occurs
  · intro returns statement member path node occurs
    cases isReturn : node.isReturn with
    | false => simp [permits, isReturn]
    | true =>
      unfold Node.isReturn at isReturn
      split at isReturn
      · rename_i argument span
        have inside := returns path argument span ⟨statement, member, occurs⟩
        simp [permits, inside]
      · contradiction

/-- Every jump of an accepted program has its target in the same function. A text is accepted
without the permission to have `return` outside of functions just when it is accepted with it, as
the same program, and has none there. -/
theorem jumps_of_parse (source : String) (options : Options) (program : Program) :
    (parse source options = .ok program → program.JumpsLegally) ∧
      (parse source { options with allowReturnOutsideFunction := false } = .ok program ↔
        parse source { options with allowReturnOutsideFunction := true } = .ok program ∧
          program.ReturnsInFunctions) := by
  constructor
  · exact jumpsLegally_of_parse
  · rw [← Restriction.accepts_noReturn]
    exact parse_restrict { noReturn := true } source
      { options with allowReturnOutsideFunction := true } program

/-- A loop with a labelled jump out of it is accepted, and a lone `return` needs the permission. -/
theorem jumps_of_labelledLoop :
    (∃ program, parse "a: while (1) { break a; }" {} = .ok program ∧ program.JumpsLegally) ∧
      ∃ program, parse "return;" { allowReturnOutsideFunction := true } = .ok program ∧
        ¬ program.ReturnsInFunctions := by
  constructor
  · obtain ⟨program, accepted⟩ :=
      exists_of_toBool (by decide +kernel : (parse "a: while (1) { break a; }" {}).toBool = true)
    exact ⟨program, accepted, (jumps_of_parse _ _ program).1 accepted⟩
  · have refused : (parse "return;" { allowReturnOutsideFunction := false }).toBool = false := by
      decide +kernel
    obtain ⟨program, accepted⟩ := exists_of_toBool (by decide +kernel :
      (parse "return;" { allowReturnOutsideFunction := true }).toBool = true)
    refine ⟨program, accepted, fun inside => ?_⟩
    rw [((jumps_of_parse "return;" {} program).2).mpr ⟨accepted, inside⟩] at refused
    contradiction

end Parse

end EcmaScript
