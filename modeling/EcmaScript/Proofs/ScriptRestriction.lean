import EcmaScript.Grammar.Script
import EcmaScript.Proofs.StatementRestriction

/-!
# Scripts with refused parts

The productions are tied together, and a restricted parse of a whole script is compared with the
lenient one: it gives the same program, unless some node of the program is refused.
-/

namespace EcmaScript

variable {restriction : Restriction}

/-- Whatever is nested, and however deeply, a restricted parse refuses what it must. -/
theorem Nonterminals.tightens_ofBudget (budget : Nat) :
    (Nonterminals.ofBudget budget).Tightens restriction := by
  induction budget with
  | zero =>
    exact
      { expression := .exhausted
        assignment := .exhausted
        unary := .exhausted
        operators := fun _ _ _ => .exhausted
        callee := .exhausted
        statement := .exhausted
        listItem := .exhausted }
  | succ budget ih =>
    exact
      { expression := Grammar.tightens_expression ih
        assignment := Grammar.tightens_assignment ih
        unary := Grammar.tightens_unary ih
        operators := fun _ _ left => Grammar.tightens_operators ih budget left
        callee := Grammar.tightens_leftHandSide ih
        statement := Grammar.tightens_statement ih
        listItem := Grammar.tightens_listItem ih }

namespace Parse.Tightens

variable {inFunction : Bool}

/-- The state is changed alike in twins. -/
theorem changes {change : State → State}
    (steady : ∀ {state : State}, state.Steady inFunction → (change state).Steady inFunction)
    (twin : ∀ {lenient strict : State}, lenient.Twin restriction inFunction strict →
      (change lenient).Twin restriction inFunction (change strict)) :
    Tightens restriction inFunction True (modify change : Parse Unit) fun _ => True := by
  constructor
  · rintro state value after steadyBefore ⟨⟩
    exact ⟨steady steadyBefore, id⟩
  · rintro lenient strict value after twinBefore _ ⟨⟩
    exact ⟨trivial, change lenient, rfl, twin twinBefore⟩
  · rintro lenient strict value after twinBefore ⟨⟩ _
    exact ⟨change strict, rfl, twin twinBefore⟩

theorem record {event : Event} :
    Tightens restriction inFunction True (Parse.record event) fun _ => True := by
  apply Tightens.changes
  · intro state steady
    exact ⟨steady.inside, steady.faithful⟩
  · intro lenient strict twin
    exact { twin with steady := ⟨twin.steady.inside, twin.steady.faithful⟩ }

theorem passHashbang :
    Tightens restriction inFunction True
      (modify fun state : State => { state with cursor := state.cursor.passHashbang })
      fun _ => True := by
  apply Tightens.changes
  · intro state steady
    exact ⟨steady.inside, steady.faithful⟩
  · intro lenient strict twin
    refine { twin with steady := ⟨twin.steady.inside, twin.steady.faithful⟩, cursor := ?_ }
    rw [twin.cursor]

/-- The first token becomes the lookahead. -/
theorem opens :
    Tightens restriction inFunction True
      (do
        let first ← fetch
        modify fun state => { state with lookahead := first })
      fun _ => True := by
  refine .takes (fun _ => Scan.token) (fun _ stop => stop) .scanned ?_ Scan.faithful_of_token
  intro state after
  constructor
  · intro run
    obtain ⟨token, between, fetched, rest⟩ := bind_eq_ok.mp run
    obtain ⟨cursor, found, rfl⟩ := fetch_eq_ok.mp fetched
    cases rest
    exact ⟨token, cursor, found, rfl⟩
  · rintro ⟨token, cursor, found, rfl⟩
    exact bind_eq_ok.mpr ⟨token, _, fetch_eq_ok.mpr ⟨cursor, found, rfl⟩, rfl⟩

end Parse.Tightens

namespace Grammar

open Parse

/-- The statements of a script, from its first token. -/
theorem tightens_statements (length : Nat) :
    Parse.Tightens restriction false True
      (do
        let first ← fetch
        modify fun state => { state with lookahead := first }
        let self := Nonterminals.ofBudget (length + 2)
        let opening ← directives self.statement self.turns
        let others ← itemsUntil (· == .endOfFile) self.listItem self.turns
        let body := opening ++ others
        record (.ended body.length)
        return ⟨body, .first, (← lookahead).span.stop⟩)
      fun program : Program =>
        ∀ statement ∈ program.body, restriction.Accepts false (.statement statement) := by
  have nested : (Nonterminals.ofBudget (length + 2)).Tightens restriction :=
    Nonterminals.tightens_ofBudget _
  rw [← bind_assoc]
  apply Tightens.skip .opens
  apply Tightens.step (tightens_directives nested.statement _)
  intro opening
  apply Tightens.step (.itemsUntil nested.listItem _)
  intro others
  apply Tightens.skip .record
  apply Tightens.lookahead
  intro token _
  apply Tightens.pure
  rw [List.forall_mem_append, true_and]

theorem tightens_script :
    Parse.Tightens restriction false True script fun program =>
      ∀ statement ∈ program.body, restriction.Accepts false (.statement statement) := by
  rw [script]
  refine .get ?_ fun state _ => ?_
  · intro lenient strict twin
    rw [twin.cursor]
  apply Tightens.skip .record
  refine .get ?_ fun now _ => ?_
  · intro lenient strict twin
    rw [twin.hashbang]
  dsimp only
  split
  · apply Tightens.skip .passHashbang
    exact tightens_statements state.cursor.sourceLength
  · exact tightens_statements state.cursor.sourceLength

end Grammar

/-- Options under which a parse refuses what a restriction says. -/
def Restriction.restrict (restriction : Restriction) (options : Options) : Options :=
  { options with
    strict := restriction.strict || options.strict
    allowReturnOutsideFunction :=
      options.allowReturnOutsideFunction && !restriction.noReturn }

theorem State.twin_ofSource (restriction : Restriction) (source : String) (options : Options) :
    (State.ofSource source options).Twin restriction false
      (State.ofSource source (restriction.restrict options)) :=
  { steady := ⟨rfl, rfl⟩, cursor := rfl, lookahead := rfl, consumedEnd := rfl, labels := rfl
    context := rfl, returns := rfl, hashbang := rfl }

theorem parse_eq_ok {source : String} {options : Options} {program : Program} :
    parse source options = .ok program ↔
      ∃ after, Grammar.script (State.ofSource source options) = .ok program after := by
  unfold parse State.parse
  constructor
  · intro accepted
    split at accepted
    · rename_i after run
      cases accepted
      exact ⟨after, run⟩
    · cases accepted
  · rintro ⟨after, run⟩
    rw [run]

/-- Under restricted options a text has the same program, if no node of it is refused, and otherwise
none. -/
theorem parse_restrict (restriction : Restriction) (source : String) (options : Options)
    (program : Program) :
    parse source (restriction.restrict options) = .ok program ↔
      parse source options = .ok program ∧
        ∀ statement ∈ program.body, restriction.Accepts false (.statement statement) := by
  have twin := State.twin_ofSource restriction source options
  rw [parse_eq_ok, parse_eq_ok]
  constructor
  · rintro ⟨after, run⟩
    obtain ⟨accepted, other, lenient, _⟩ := Grammar.tightens_script.forward twin trivial run
    exact ⟨⟨other, lenient⟩, accepted⟩
  · rintro ⟨⟨after, run⟩, accepted⟩
    obtain ⟨other, strict, _⟩ := Grammar.tightens_script.backward twin run accepted
    exact ⟨other, strict⟩

end EcmaScript
