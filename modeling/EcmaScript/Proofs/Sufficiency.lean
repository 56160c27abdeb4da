import EcmaScript.Proofs.ScriptBudget

/-!
# Budgets that suffice

The budget of a parse is only there to end the recursion. Two parses of one text with different
budgets follow each other step by step, and since no text runs out of a budget above its length, any
such budget gives the result that the text has.
-/

namespace EcmaScript

open Parse Grammar EcmaScript.Alignment

/-- A parse and another one of the same text, with something that is known of all points that they
reach. -/
def Pairing.unchanged (returns : Bool) (Reaches : Point → Prop)
    (advance : ∀ {before after}, Reaches before → before.Advances after → Reaches after)
    (reread : ∀ {before after}, Reaches before → before.Rereads after → Reaches after) :
    Pairing where
  left := id
  right := id
  mate := id
  right_mate := id_mate
  firstReturns := returns
  secondReturns := returns
  Reached := Reaches
  Ahead _ := True
  Doomed _ _ := True
  Level first second := second = first
  reached_of_advances := advance
  reached_of_rereads := reread
  ahead_of_advances _ _ _ := trivial
  ahead_of_rereads _ _ _ := trivial
  ahead_of_doomed _ _ _ := trivial
  matches_of_level := by
    rintro first _ rfl
    exact ⟨rfl, rfl, rfl, rfl⟩
  consumedEnd_of_level := by
    rintro first _ rfl
    rfl
  advances := by
    rintro first _ after rfl - step -
    exact ⟨after, step, rfl⟩
  fault_of_token := by
    rintro first _ fault cursor rfl - scanned -
    exact ⟨fault, cursor, scanned, rfl, rfl⟩
  rereads := by
    rintro first _ after rfl - step -
    exact ⟨after, step, rfl⟩
  fault_of_regularExpression := by
    rintro first _ front fault cursor rfl - - scanned -
    exact ⟨fault, cursor, scanned, rfl, rfl⟩

/-- The alignment of a parse with another one of the same text. -/
def Alignment.unchanged (returns : Bool) (Reaches : Point → Prop)
    (advance : ∀ {before after}, Reaches before → before.Advances after → Reaches after)
    (reread : ∀ {before after}, Reaches before → before.Rereads after → Reaches after) :
    Alignment :=
  (Pairing.unchanged returns Reaches advance reread).alignment

section Unchanged

variable {returns : Bool} {Reaches : Point → Prop}
  {advance : ∀ {before after}, Reaches before → before.Advances after → Reaches after}
  {reread : ∀ {before after}, Reaches before → before.Rereads after → Reaches after}

/-- A state is level with itself. -/
theorem Alignment.related_unchanged {phase : Prop} (state : State) (reached : Reaches state.point)
    (same : state.options.allowReturnOutsideFunction = returns) :
    (Alignment.unchanged returns Reaches advance reread).Related phase state state where
  reached := reached
  points := .inl rfl
  context := rfl
  labels := rfl
  returns := rfl
  firstReturns := same
  secondReturns := same

/-- Statements that need not be moved to be brought together are the same. -/
theorem Alignment.eq_of_unchanged {body other : List Statement}
    (same : (Alignment.unchanged returns Reaches advance reread).Same body other) :
    other = body := by
  have same : body.map (Statement.relocate id) = other.map (Statement.relocate id) := same
  rw [List.map_id'' Statement.relocate_id, List.map_id'' Statement.relocate_id] at same
  exact same.symm

end Unchanged

/-- With a larger budget the statements of a script are the same, and so is what is wrong. -/
theorem Grammar.topLevel_of_budget {budget larger : Nat} (enough : budget ≤ larger)
    (state : State) :
    (∀ {body after}, topLevel (.ofBudget budget) budget state = .ok body after →
      ∃ last, topLevel (.ofBudget larger) larger state = .ok body last ∧
        last.point = after.point) ∧
    ∀ {fault after}, topLevel (.ofBudget budget) budget state = .error fault after →
      fault.cause ≠ .exhausted →
      ∃ last, topLevel (.ofBudget larger) larger state = .error fault last := by
  have follows := follows_topLevel
    (σ := .unchanged state.options.allowReturnOutsideFunction (fun _ => True) (fun _ _ => trivial)
      fun _ _ => trivial)
    (Nonterminals.follows_ofBudget enough) rfl enough
  have related : (Alignment.unchanged state.options.allowReturnOutsideFunction (fun _ => True)
      (fun _ _ => trivial) fun _ _ => trivial).Related (True ∨ False) state state :=
    related_unchanged state trivial rfl
  constructor
  · intro body after run
    obtain ⟨result, last, runToo, same, relatedToo⟩ := follows.ok related run trivial
    rw [eq_of_unchanged same] at runToo
    exact ⟨last, runToo, relatedToo.level trivial⟩
  · intro fault after run possible
    obtain ⟨other, last, runToo, cause, position⟩ := follows.error related run possible trivial
    obtain rfl : other = fault := by
      cases other
      cases fault
      exact congrArg₂ Fault.mk cause position.symm
    exact ⟨last, runToo⟩

/-- What a text is read as can be found with any budget above its length. -/
theorem parse_eq_of_budget {source : String} {budget : Nat} (enough : source.length + 2 ≤ budget)
    (options : Options) :
    parse source options =
      match Scan.token (State.ofSource source options).opening with
      | .error fault _ => .error fault
      | .ok token cursor =>
        match topLevel (.ofBudget budget) budget
          ((State.ofSource source options).begun token cursor) with
        | .error fault _ => .error fault
        | .ok body after => .ok ⟨body, .first, after.lookahead.span.stop⟩ := by
  have possible : ∀ {fault}, parse source options = .error fault → fault.cause ≠ .exhausted :=
    possible_of_parse
  rw [parse_eq] at possible ⊢
  cases scanned : Scan.token (State.ofSource source options).opening with
  | error => rfl
  | ok token cursor =>
    dsimp only
    rw [scanned] at possible
    obtain ⟨of_ok, of_error⟩ :=
      topLevel_of_budget enough ((State.ofSource source options).begun token cursor)
    dsimp only at possible
    cases run : topLevel (.ofBudget (source.length + 2)) (source.length + 2)
      ((State.ofSource source options).begun token cursor) with
    | error fault after =>
      rw [run] at possible
      obtain ⟨last, runToo⟩ := of_error run (possible rfl)
      rw [runToo]
    | ok body after =>
      obtain ⟨last, runToo, same⟩ := of_ok run
      have lookahead : last.lookahead = after.lookahead := congrArg Point.lookahead same
      rw [runToo]
      dsimp only
      rw [lookahead]

end EcmaScript
