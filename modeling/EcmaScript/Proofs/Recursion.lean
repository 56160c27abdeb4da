import EcmaScript.Proofs.Sufficiency

/-!
# Recursion consumes tokens

A construct of the grammar that is reached again stands behind the one in which it is nested: tokens
have been consumed in between. To say so, the constructs that a production is written over are
replaced by constructs that do not work anywhere else, and the production does not notice.
-/

namespace EcmaScript

open Parse Grammar EcmaScript.Alignment

namespace Point

/-- A point that a parse can come to. The lookahead is the token scanned last, the end of the text
has not been consumed, and a token that is not the end has characters. -/
def IsProper (point : Point) : Prop :=
  point.scanned.head? = some point.lookahead ∧
    (point.lookahead.lexeme ≠ .endOfFile → point.lookahead.text ≠ "") ∧
    ∀ token ∈ point.scanned.tail, token.lexeme ≠ .endOfFile

instance (point : Point) : Decidable point.IsProper :=
  inferInstanceAs (Decidable (_ ∧ _ ∧ _))

/-- A point comes behind another one: tokens have been consumed in between, and their characters do
not lie ahead any more. -/
def IsBehind (start later : Point) : Prop :=
  later.IsProper ∧ start.scanned.length < later.scanned.length ∧ later.ahead < start.ahead

instance (start later : Point) : Decidable (start.IsBehind later) :=
  inferInstanceAs (Decidable (_ ∧ _ ∧ _))

variable {before after : Point}

theorem text_ne_of_token {cursor last : Cursor} {next : Token}
    (scanned : Scan.token cursor = .ok next last) (inside : next.lexeme ≠ .endOfFile) :
    next.text ≠ "" := by
  obtain ⟨gap, length, reads⟩ := Scan.reads_of_token scanned
  obtain ⟨flags, read⟩ := reads.lexeme
  have some := (Lexeme.pos_of_read read inside).1
  have within := Lexeme.length_read_le (cursor.pass gap).rest
  rw [read] at within
  have within : length ≤ (cursor.pass gap).rest.length := within
  intro empty
  have none := congrArg String.length empty
  rw [reads.text, String.length_ofList, List.length_take_of_le within] at none
  exact absurd none (Nat.ne_of_gt some)

/-- A token that is consumed takes its characters away from the text ahead. -/
theorem IsProper.advances (proper : before.IsProper) (step : before.Advances after) :
    after.IsProper ∧ after.scanned.length = before.scanned.length + 1 ∧
      after.ahead < before.ahead := by
  obtain ⟨inside, next, cursor, scanned, rfl⟩ := step
  obtain ⟨latest, text, earlier⟩ := proper
  refine ⟨⟨rfl, text_ne_of_token scanned, ?_⟩, rfl, ?_⟩
  · intro token member
    obtain ⟨others, whole⟩ := List.head?_eq_some_iff.mp latest
    change token ∈ before.scanned at member
    rw [whole] at member earlier
    rcases List.mem_cons.mp member with rfl | member
    · exact inside
    · exact earlier token member
  · have rest := Scan.rest_of_token scanned
    have some := Token.width_pos inside
    change cursor.rest.length + next.width < before.cursor.rest.length + before.lookahead.width
    omega

/-- Reading a slash again consumes nothing. -/
theorem IsProper.rereads (proper : before.IsProper) (step : before.Rereads after) :
    after.IsProper ∧ after.scanned.length = before.scanned.length ∧
      after.ahead = before.ahead := by
  obtain ⟨front, next, cursor, slash, scanned, rfl⟩ := step
  obtain ⟨latest, text, earlier⟩ := proper
  have inside : before.lookahead.lexeme ≠ .endOfFile := by
    intro ended
    simp [ended, Scan.slash?] at slash
  have nonempty := text inside
  obtain ⟨length, rereads⟩ := Scan.rereadsAs_of_regularExpression scanned
  refine ⟨⟨rfl, fun _ empty => ?_, earlier⟩, ?_, ?_⟩
  · have lengths := congrArg String.length (rereads.text.symm.trans empty)
    rw [String.length_append] at lengths
    exact nonempty (String.length_eq_zero_iff.mp (Nat.eq_zero_of_add_eq_zero_right lengths))
  · obtain ⟨others, whole⟩ := List.head?_eq_some_iff.mp latest
    rw [whole]
    rfl
  · exact (Scan.rest_of_regularExpression scanned slash).2 nonempty

end Point

/-- An action that works only at some points. -/
def Parse.onlyAt {α : Type} (allowed : Point → Prop) [DecidablePred allowed] (action : Parse α) :
    Parse α := fun state =>
  if allowed state.point then action state else exhausted state

/-- What an action makes of a text, whatever state it leaves. -/
def Parse.outcome {α : Type} (action : Parse α) (state : State) : Except Fault α :=
  match action state with
  | .ok value _ => .ok value
  | .error fault _ => .error fault

/-- Constructs of the grammar that work only at some points. -/
def Nonterminals.onlyAt (allowed : Point → Prop) [DecidablePred allowed] (self : Nonterminals) :
    Nonterminals where
  turns := self.turns
  expression := self.expression.onlyAt allowed
  assignment := self.assignment.onlyAt allowed
  unary := self.unary.onlyAt allowed
  operators start tier left := (self.operators start tier left).onlyAt allowed
  callee := self.callee.onlyAt allowed
  statement := self.statement.onlyAt allowed
  listItem := self.listItem.onlyAt allowed

section OnlyAt

variable {α : Type} {allowed permitted : Point → Prop} [DecidablePred allowed]
  [DecidablePred permitted]

namespace Parse

theorem onlyAt_of_allowed {action : Parse α} {state : State} (here : allowed state.point) :
    action.onlyAt allowed state = action state :=
  if_pos here

theorem onlyAt_of_not_allowed {action : Parse α} {state : State} (elsewhere : ¬allowed state.point) :
    action.onlyAt allowed state = exhausted state :=
  if_neg elsewhere

theorem onlyAt_eq_ok {action : Parse α} {state next : State} {value : α} :
    action.onlyAt allowed state = .ok value next ↔
      allowed state.point ∧ action state = .ok value next := by
  by_cases here : allowed state.point
  · rw [onlyAt_of_allowed here]
    exact (and_iff_right here).symm
  · rw [onlyAt_of_not_allowed here]
    refine iff_of_false ?_ fun run => here run.1
    rintro ⟨⟩

theorem Ensures.onlyAt {action : Parse α} {state : State} {property : α → State → Prop}
    (ensures : action.Ensures state property) :
    (action.onlyAt allowed).Ensures state property :=
  ⟨fun run => ensures.of_ok (onlyAt_eq_ok.mp run).2⟩

theorem Settles.onlyAt {action : Parse α} {state : State} {least : Nat}
    (settles : action.Settles state least) (here : allowed state.point) :
    (action.onlyAt allowed).Settles state least :=
  settles_of_eq (onlyAt_of_allowed here) settles

theorem before_onlyAt {operator : BinaryOperator} {action : Parse α} :
    Parse.before operator (action.onlyAt allowed) = (Parse.before operator action).onlyAt allowed := by
  funext state
  unfold Parse.before Parse.onlyAt
  dsimp only
  split
  · rfl
  · split <;> rfl

end Parse

/-- An action that works only at some points follows another one, if it may work wherever that one
does. -/
theorem Alignment.Follows.onlyAt [Located α] {σ : Alignment} {enter exit : Extent} {known : Prop}
    {action other : Parse α} {after : α → Prop}
    (follows : σ.Follows enter exit known action other after)
    (permits : ∀ {phase first second}, σ.Related phase first second → allowed first.point →
      permitted second.point) :
    σ.Follows enter exit known (action.onlyAt allowed) (other.onlyAt permitted) after := by
  have possibly : ∀ {state next : State} {fault : Fault},
      action.onlyAt allowed state = .error fault next → fault.cause ≠ .exhausted →
        allowed state.point ∧ action state = .error fault next := by
    intro state next fault run possible
    by_cases here : allowed state.point
    · exact ⟨here, (onlyAt_of_allowed here).symm.trans run⟩
    · cases (onlyAt_of_not_allowed here).symm.trans run
      exact absurd rfl possible
  constructor
  · intro state value next reached run
    exact follows.heeds reached (onlyAt_eq_ok.mp run).2
  · intro phase state mate value next related run ahead
    obtain ⟨here, run⟩ := onlyAt_eq_ok.mp run
    rw [onlyAt_of_allowed (permits related here)]
    exact follows.ok related run ahead
  · intro state fault next reached run possible
    exact follows.fails reached (possibly run possible).2 possible
  · intro phase state mate fault next related run possible doomed
    obtain ⟨here, run⟩ := possibly run possible
    rw [onlyAt_of_allowed (permits related here)]
    exact follows.error related run possible doomed

namespace Nonterminals

theorem Sound.onlyAt {self : Nonterminals} (sound : self.Sound) : (self.onlyAt allowed).Sound where
  expression state := (sound.expression state).onlyAt
  assignment state := (sound.assignment state).onlyAt
  unary state := (sound.unary state).onlyAt
  operators tier left start state front so more :=
    (sound.operators tier left start state front so more).onlyAt
  callee state := (sound.callee state).onlyAt
  statement state := (sound.statement state).onlyAt
  listItem state := (sound.listItem state).onlyAt

theorem Settles.onlyAt {self : Nonterminals} {budget : Nat} (settles : self.Settles budget)
    (here : ∀ {state : State}, state.ahead < budget → allowed state.point) :
    (self.onlyAt allowed).Settles budget where
  turns := settles.turns
  expression less := (settles.expression less).onlyAt (here less)
  assignment less := (settles.assignment less).onlyAt (here less)
  unary less := (settles.unary less).onlyAt (here less)
  operators less found higher :=
    (settles.operators less found higher).onlyAt (here (Nat.lt_of_succ_lt less))
  callee less := (settles.callee less).onlyAt (here less)
  statement less := (settles.statement less).onlyAt (here less)
  listItem less := (settles.listItem less).onlyAt (here less)

theorem Follows.onlyAt {σ : Alignment} {self other : Nonterminals} (nested : self.Follows σ other)
    (permits : ∀ {phase first second}, σ.Related phase first second → allowed first.point →
      permitted second.point) :
    (self.onlyAt allowed).Follows σ (other.onlyAt permitted) where
  turns := nested.turns
  sound := nested.sound.onlyAt
  soundToo := nested.soundToo.onlyAt
  expression := nested.expression.onlyAt permits
  assignment := nested.assignment.onlyAt permits
  unary := nested.unary.onlyAt permits
  operators := by
    intro exit start opening left front operator tier higher sameStart same
    dsimp only [Nonterminals.onlyAt]
    rw [before_onlyAt]
    exact (nested.operators higher sameStart same).onlyAt permits
  callee := nested.callee.onlyAt permits
  statement := nested.statement.onlyAt permits
  listItem := nested.listItem.onlyAt permits

end Nonterminals

end OnlyAt

/-- Everywhere is a place to work at. -/
theorem Nonterminals.onlyAt_true (self : Nonterminals) : self.onlyAt (fun _ => True) = self := by
  cases self
  rfl

namespace Point

/-- A parse comes to a point from another one, whether tokens have been consumed in between or not.
-/
def ComesFrom (start later : Point) : Prop :=
  later.IsProper ∧
    (start.scanned.length < later.scanned.length ∨
      later.scanned.length = start.scanned.length ∧ later.ahead = start.ahead) ∧
    later.scanned.length + later.ahead ≤ start.scanned.length + start.ahead

variable {start before after : Point}

theorem ComesFrom.refl (proper : start.IsProper) : start.ComesFrom start :=
  ⟨proper, .inr ⟨rfl, rfl⟩, Nat.le_refl _⟩

theorem ComesFrom.advances (comes : start.ComesFrom before) (step : before.Advances after) :
    start.ComesFrom after := by
  obtain ⟨proper, further, behind⟩ := comes.1.advances step
  have bound := comes.2.2
  refine ⟨proper, .inl ?_, by omega⟩
  rcases comes.2.1 with apart | level <;> omega

theorem ComesFrom.rereads (comes : start.ComesFrom before) (step : before.Rereads after) :
    start.ComesFrom after := by
  obtain ⟨proper, further, behind⟩ := comes.1.rereads step
  have bound := comes.2.2
  refine ⟨proper, ?_, by omega⟩
  rcases comes.2.1 with apart | level
  · exact .inl (by omega)
  · exact .inr (by omega)

/-- Where less text lies ahead, tokens have been consumed. -/
theorem ComesFrom.isBehind (comes : start.ComesFrom after) (less : after.ahead < start.ahead) :
    start.IsBehind after := by
  refine ⟨comes.1, ?_, less⟩
  rcases comes.2.1 with apart | level <;> omega

end Point

/-- Parses that go on from one point. -/
def Alignment.from (start : Point) (returns : Bool) : Alignment :=
  .unchanged returns start.ComesFrom Point.ComesFrom.advances Point.ComesFrom.rereads

/-- A production that goes on from a state runs the constructs that it is written over behind the
state only, and ends as its text demands. -/
def Nonterminals.RecursesBehind {α : Type} (self : Nonterminals) (state : State)
    (production : Nonterminals → Parse α) : Prop :=
  outcome (production (self.onlyAt state.point.IsBehind)) state = outcome (production self) state ∧
    ∀ {fault}, outcome (production self) state = .error fault → fault.cause ≠ .exhausted

section Recursion

variable {α : Type} [Located α] {state : State} {least : Nat} {exit : Extent} {known : Prop}
  {after : α → Prop} {production limited : Nonterminals → Parse α} {budget : Nat}

/-- An action that follows another one in a parse of the same text has the same outcome. -/
theorem outcome_of_follows {Reaches : Point → Prop}
    {advance : ∀ {before after}, Reaches before → before.Advances after → Reaches after}
    {reread : ∀ {before after}, Reaches before → before.Rereads after → Reaches after}
    {action other : Parse α}
    (follows : (Alignment.unchanged state.options.allowReturnOutsideFunction Reaches advance
      reread).Follows .inside .inside known action other after)
    (unmoved : ∀ value : α, Located.relocate id value = value) (reached : Reaches state.point)
    (settles : action.Settles state least) : outcome other state = outcome action state := by
  have related : (Alignment.unchanged state.options.allowReturnOutsideFunction Reaches advance
      reread).Related (True ∨ known) state state :=
    related_unchanged state reached rfl
  unfold outcome
  cases run : action state with
  | ok value next =>
    obtain ⟨result, last, runToo, same, -⟩ := follows.ok related run trivial
    rw [runToo]
    have same : Located.relocate id value = Located.relocate id result := same
    rw [unmoved, unmoved] at same
    rw [same]
  | error fault next =>
    obtain ⟨result, last, runToo, cause, position⟩ :=
      follows.error related run (settles.error run) trivial
    rw [runToo]
    cases result
    cases fault
    exact congrArg Except.error (congrArg₂ Fault.mk cause position.symm)

/-- The constructs are limited first to points with less text ahead, where they have a budget of
their own that suffices. -/
theorem recursesBehind (proper : state.point.IsProper) (enough : state.ahead ≤ budget)
    (settles : ∀ {self : Nonterminals}, self.Settles state.ahead →
      (production self).Settles state least)
    (follows : ∀ {self other : Nonterminals},
      self.Follows (.from state.point state.options.allowReturnOutsideFunction) other →
        (Alignment.from state.point state.options.allowReturnOutsideFunction).Follows .inside .inside
          known (limited self) (production other) after)
    (same : ∀ self, limited self state = production self state)
    (unmoved : ∀ value : α, Located.relocate id value = value) :
    (Nonterminals.ofBudget budget).RecursesBehind state production := by
  have nested : (Nonterminals.ofBudget state.ahead).Follows
      (.from state.point state.options.allowReturnOutsideFunction) (.ofBudget budget) :=
    Nonterminals.follows_ofBudget enough
  have behind : ((Nonterminals.ofBudget state.ahead).onlyAt (·.ahead < state.ahead)).Follows
      (.from state.point state.options.allowReturnOutsideFunction)
      ((Nonterminals.ofBudget budget).onlyAt state.point.IsBehind) := by
    apply nested.onlyAt
    intro phase first second related less
    have level : second.point = first.point := related.level trivial
    rw [level]
    exact related.reached.isBehind less
  have anywhere : ((Nonterminals.ofBudget state.ahead).onlyAt (·.ahead < state.ahead)).Follows
      (.from state.point state.options.allowReturnOutsideFunction) (.ofBudget budget) := by
    rw [← Nonterminals.onlyAt_true (.ofBudget budget)]
    exact nested.onlyAt fun _ _ => trivial
  have settled : ((Nonterminals.ofBudget state.ahead).onlyAt (·.ahead < state.ahead)).Settles
      state.ahead := (Nonterminals.settles_ofBudget state.ahead).onlyAt id
  have settled := settles_of_eq (same _) (settles settled)
  have first := outcome_of_follows (follows behind) unmoved (.refl proper) settled
  have second := outcome_of_follows (follows anywhere) unmoved (.refl proper) settled
  refine ⟨first.trans second.symm, ?_⟩
  intro fault refused
  rw [second] at refused
  unfold outcome at refused
  split at refused
  · cases refused
  · rename_i run
    cases refused
    exact settled.error run

end Recursion

end EcmaScript
