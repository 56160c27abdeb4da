import EcmaScript.Proofs.ScriptSoundness
import EcmaScript.Proofs.StatementFollowing

/-!
# Scripts that follow others

By induction on the budget all constructs of the grammar follow each other, and so do the statements
of scripts. A parse may follow one that has a smaller budget.
-/

namespace EcmaScript

open Parse Grammar EcmaScript.Alignment

variable {σ : Alignment}

/-- Constructs follow others if the constructs that are nested in them do. -/
theorem Nonterminals.Follows.above {self other : Nonterminals} (nested : self.Follows σ other)
    {budget larger : Nat} (enough : budget ≤ larger) :
    (self.above budget).Follows σ (other.above larger) where
  turns := Nat.succ_le_succ enough
  sound := nested.sound.above budget
  soundToo := nested.soundToo.above larger
  expression := follows_expression nested
  assignment := follows_assignment nested
  unary := follows_unary nested
  operators higher sameStart same := (follows_operators nested sameStart enough same).2 _ higher
  callee := follows_leftHandSide nested
  statement := follows_statement nested
  listItem := follows_listItem nested

theorem Nonterminals.follows_ofBudget {budget larger : Nat} (enough : budget ≤ larger) :
    (ofBudget budget).Follows σ (ofBudget larger) := by
  induction budget generalizing larger with
  | zero =>
    exact
      { turns := Nat.zero_le _
        sound := sound_ofBudget 0
        soundToo := sound_ofBudget larger
        expression := .exhausted
        assignment := .exhausted
        unary := .exhausted
        operators := fun _ _ _ => follows_before fun _ _ => .upon .exhausted
        callee := .exhausted
        statement := .exhausted
        listItem := .exhausted }
  | succ budget ih =>
    obtain ⟨more, rfl⟩ := Nat.exists_eq_add_of_lt enough
    exact (ih (Nat.le_add_right _ _)).above (Nat.le_add_right _ _)

/-- The cursor at which the first token of a script is scanned. -/
def State.opening (state : State) : Cursor :=
  if state.options.allowHashbang then state.cursor.passHashbang else state.cursor

/-- The state before the first statement of a script, whose first token has been scanned. -/
def State.begun (state : State) (token : Token) (cursor : Cursor) : State :=
  { state with
    cursor, lookahead := token
    events := .scanned token :: .began state.cursor.sourceLength :: state.events }

namespace Grammar

theorem beginning_of_token {state : State} {token : Token} {cursor : Cursor}
    (scanned : Scan.token state.opening = .ok token cursor) :
    beginning state =
      .ok (.ofBudget (state.cursor.sourceLength + 2)) (state.begun token cursor) := by
  rw [beginning_eq]
  exact bind_eq_ok.mpr ⟨token, _, fetch_eq_ok.mpr ⟨cursor, scanned, rfl⟩, rfl⟩

theorem beginning_of_fault {state : State} {fault : Fault} {cursor : Cursor}
    (scanned : Scan.token state.opening = .error fault cursor) :
    beginning state =
      .error fault
        { state with cursor, events := .began state.cursor.sourceLength :: state.events } := by
  rw [beginning_eq]
  refine bind_eq_error.mpr (.inl (bind_eq_error.mpr (.inl ?_)))
  exact scan_eq_error.mpr ⟨cursor, scanned, rfl⟩

/-- The statements of a script, without what is recorded of them. -/
def topLevel (self : Nonterminals) (turns : Nat) : Parse (List Statement) := do
  let opening ← directives self.statement turns
  let others ← itemsUntil (· == .endOfFile) self.listItem self.turns
  return opening ++ others

theorem wholeBody_eq (self : Nonterminals) :
    wholeBody self = do
      let body ← topLevel self self.turns
      record (.ended body.length)
      return ⟨body, .first, (← lookahead).span.stop⟩ := by
  unfold wholeBody topLevel
  simp only [bind_assoc, pure_bind]

theorem wholeBody_of_topLevel {self : Nonterminals} {turns : Nat} {state after : State}
    {body : List Statement} (many : self.turns = turns)
    (run : topLevel self turns state = .ok body after) :
    wholeBody self state =
      .ok ⟨body, .first, after.lookahead.span.stop⟩
        { after with events := .ended body.length :: after.events } := by
  rw [wholeBody_eq, many]
  exact bind_eq_ok.mpr ⟨body, after, run, rfl⟩

theorem wholeBody_of_fault {self : Nonterminals} {turns : Nat} {state after : State}
    {fault : Fault} (many : self.turns = turns)
    (run : topLevel self turns state = .error fault after) :
    wholeBody self state = .error fault after := by
  rw [wholeBody_eq, many]
  exact bind_eq_error.mpr (.inl run)

/-- The statements of scripts follow each other where statements never come up to an edge. -/
theorem follows_topLevel {self other : Nonterminals} {turns turnsToo : Nat}
    (nested : self.Follows σ other) (inside : σ.extent = .inside) (enough : turns ≤ turnsToo) :
    σ.Follows .inside .inside False (topLevel self turns) (topLevel other turnsToo) σ.Marks := by
  rw [topLevel, topLevel]
  have opening := follows_directives nested.sound.statement nested.soundToo.statement
    nested.statement enough
  rw [inside] at opening
  apply Follows.step opening
  intro front frontToo sameFront
  have items : σ.Follows .inside .inside False
      (itemsUntil (· == .endOfFile) self.listItem self.turns)
      (itemsUntil (· == .endOfFile) other.listItem other.turns) σ.Marks :=
    .itemsUntil (by simp) (inside ▸ nested.listItem) nested.turns
  apply Follows.step items
  intro back backToo sameBack
  exact .pure (Follows.same_append sameFront sameBack) (by rw [Follows.marks_append, false_or])

end Grammar

theorem Cursor.passHashbang_of_plain {cursor : Cursor} (plain : ¬['#', '!'] <+: cursor.rest) :
    cursor.passHashbang = cursor := by
  unfold passHashbang
  split
  · rename_i found
    exact absurd (by rw [found]; exact ⟨_, rfl⟩) plain
  · rfl

/-- A text without a hashbang is scanned from its start. -/
theorem State.opening_of_plain {source : String} {options : Options}
    (plain : ¬['#', '!'] <+: source.toList) :
    (State.ofSource source options).opening = .atStart source := by
  unfold opening
  split
  · exact Cursor.passHashbang_of_plain plain
  · rfl

/-- The first token of a text is scanned, and then its statements are read. -/
theorem parse_eq (source : String) (options : Options) :
    parse source options =
      match Scan.token (State.ofSource source options).opening with
      | .error fault _ => .error fault
      | .ok token cursor =>
        match topLevel (.ofBudget (source.length + 2)) (source.length + 2)
          ((State.ofSource source options).begun token cursor) with
        | .error fault _ => .error fault
        | .ok body after => .ok ⟨body, .first, after.lookahead.span.stop⟩ := by
  have length : (State.ofSource source options).cursor.sourceLength = source.length := by
    rw [← String.length_toList]
    exact Nat.zero_add _
  unfold parse State.parse
  rw [script_eq]
  cases scanned : Scan.token (State.ofSource source options).opening with
  | error fault cursor =>
    rw [bind_eq_error.mpr (.inl (beginning_of_fault scanned))]
  | ok token cursor =>
    have begins := beginning_of_token scanned
    rw [length] at begins
    dsimp only
    have turns := Nonterminals.turns_ofBudget (source.length + 2)
    cases run : topLevel (.ofBudget (source.length + 2)) (source.length + 2)
      ((State.ofSource source options).begun token cursor) with
    | error fault after =>
      have whole := wholeBody_of_fault turns run
      rw [bind_eq_error.mpr (.inr ⟨_, _, begins, whole⟩)]
    | ok body after =>
      have whole := wholeBody_of_topLevel turns run
      rw [bind_eq_ok.mpr ⟨_, _, begins, whole⟩]

/-- A text is refused for its first token, or for its statements. -/
theorem State.exists_fault_of_parse {source : String} {options : Options} {fault : Fault}
    {after : State} (refused : (ofSource source options).parse = (.error fault, after)) :
    Scan.token (ofSource source options).opening = .error fault after.cursor ∧
        Event.tokens after.events = [] ∨
      ∃ token cursor, Scan.token (ofSource source options).opening = .ok token cursor ∧
        topLevel (.ofBudget (source.length + 2)) (source.length + 2)
          ((ofSource source options).begun token cursor) = .error fault after := by
  have length : (ofSource source options).cursor.sourceLength = source.length := by
    rw [← String.length_toList]
    exact Nat.zero_add _
  have run : script (ofSource source options) = .error fault after := by
    unfold State.parse at refused
    split at refused <;> cases refused
    assumption
  rw [script_eq] at run
  cases scanned : Scan.token (ofSource source options).opening with
  | error other cursor =>
    rw [bind_eq_error.mpr (.inl (beginning_of_fault scanned))] at run
    cases run
    exact .inl ⟨rfl, rfl⟩
  | ok token cursor =>
    refine .inr ⟨token, cursor, rfl, ?_⟩
    have begins := beginning_of_token scanned
    rw [length] at begins
    rcases bind_eq_error.mp run with failed | ⟨self, first, begun, failed⟩
    · rw [begins] at failed
      cases failed
    · rw [begins] at begun
      cases begun
      rw [wholeBody_eq] at failed
      rcases bind_eq_error.mp failed with failed | ⟨body, last, _, rest⟩
      · exact failed
      · cases rest

theorem Grammar.begins_of_token {source : String} {options : Options} {token : Token}
    {cursor : Cursor} (scanned : Scan.token (State.ofSource source options).opening = .ok token cursor) :
    Begins (.ofSource source options) ((State.ofSource source options).begun token cursor) where
  scope := rfl
  scanned := by
    unfold State.opening at scanned
    split at scanned
    · exact .inr scanned
    · exact .inl scanned
  events := rfl

/-- The first token of a text that is accepted is scanned, and then all its statements are read. -/
theorem State.exists_topLevel_of_parse {source : String} {options : Options} {program : Program}
    {after : State} (accepted : (ofSource source options).parse = (.ok program, after)) :
    ∃ token cursor last, Scan.token (ofSource source options).opening = .ok token cursor ∧
      topLevel (.ofBudget (source.length + 2)) (source.length + 2)
        ((ofSource source options).begun token cursor) = .ok program.body last ∧
      Begins (ofSource source options) ((ofSource source options).begun token cursor) ∧
      IsScript ((ofSource source options).begun token cursor) after.consumed program after ∧
      last.point = after.point := by
  have run : script (ofSource source options) = .ok program after := by
    unfold State.parse at accepted
    split at accepted <;> cases accepted
    assumption
  have length : (ofSource source options).cursor.sourceLength = source.length := by
    rw [← String.length_toList]
    exact Nat.zero_add _
  rw [script_eq] at run
  obtain ⟨self, first, runFirst, runBody⟩ := bind_eq_ok.mp run
  cases scanned : Scan.token (ofSource source options).opening with
  | error fault cursor =>
    rw [beginning_of_fault scanned] at runFirst
    cases runFirst
  | ok token cursor =>
    rw [beginning_of_token scanned, length] at runFirst
    cases runFirst
    have begins := begins_of_token scanned
    obtain ⟨tokens, isScript⟩ :=
      (ensures_wholeBody (Nonterminals.sound_ofBudget _) _).of_ok runBody
    rw [wholeBody_eq] at runBody
    obtain ⟨body, last, runTop, rest⟩ := bind_eq_ok.mp runBody
    cases rest
    rw [← isScript.consumed begins.events] at isScript
    exact ⟨token, cursor, last, rfl, runTop, begins, isScript, rfl⟩

end EcmaScript
