import EcmaScript.Proofs.Stream

/-!
# What an action ensures

`Parse.Ensures` says what holds of every result of an action. Actions that only look at the state
are replaced by what they see, and an action is sound for a relation when every result of it is
related to the tokens that it consumed. From a sound action one goes on with the tokens so far
extended by its own.
-/

namespace EcmaScript.Parse

variable {α β : Type}

/-- Every result of an action from a state, and the state after it, have a property. -/
structure Ensures (action : Parse α) (state : State) (property : α → State → Prop) : Prop where
  of_ok : ∀ {value after}, action state = .ok value after → property value after

section Ensures

variable {state : State} {property : β → State → Prop}

/-- Actions with the same outcome ensure the same. -/
theorem ensures_of_eq {first second : Parse β} {other : State} (same : first state = second other) :
    first.Ensures state property ↔ second.Ensures other property := by
  constructor
  · intro ensures
    exact ⟨fun run => ensures.of_ok (same.trans run)⟩
  · intro ensures
    exact ⟨fun run => ensures.of_ok (same.symm.trans run)⟩

theorem ensures_bind {action : Parse α} {rest : α → Parse β} :
    (action >>= rest).Ensures state property ↔
      action.Ensures state fun value after => (rest value).Ensures after property := by
  constructor
  · intro whole
    constructor
    intro value between first
    constructor
    intro result after second
    apply whole.of_ok
    change EStateM.bind action rest state = _
    rw [EStateM.bind, first]
    exact second
  · intro parts
    constructor
    intro result after run
    change EStateM.bind action rest state = _ at run
    rw [EStateM.bind] at run
    split at run
    · rename_i value between first
      exact (parts.of_ok first).of_ok run
    · contradiction

@[simp] theorem ensures_pure {value : β} :
    (pure value : Parse β).Ensures state property ↔ property value state := by
  constructor
  · intro ensures
    exact ensures.of_ok rfl
  · intro holds
    constructor
    intro result after run
    cases run
    exact holds

@[simp] theorem ensures_map {action : Parse α} {function : α → β} :
    (function <$> action).Ensures state property ↔
      action.Ensures state fun value => property (function value) := by
  rw [map_eq_pure_bind, ensures_bind]
  simp only [ensures_pure]

@[simp] theorem ensures_fail {cause : Cause} {position : Position} :
    (fail cause position : Parse β).Ensures state property := by
  constructor
  intro value after run
  cases run

@[simp] theorem ensures_fail_bind {cause : Cause} {position : Position} {rest : α → Parse β} :
    ((fail cause position : Parse α) >>= rest).Ensures state property := by
  rw [ensures_bind]
  exact ensures_fail

@[simp] theorem ensures_unexpected : (unexpected : Parse β).Ensures state property := by
  constructor
  intro value after run
  cases run

@[simp] theorem ensures_exhausted : (exhausted : Parse β).Ensures state property := by
  constructor
  intro value after run
  cases run

@[simp] theorem ensures_get {rest : State → Parse β} :
    ((get : Parse State) >>= rest).Ensures state property ↔
      (rest state).Ensures state property :=
  ensures_of_eq rfl

@[simp] theorem ensures_lookahead {rest : Token → Parse β} :
    (lookahead >>= rest).Ensures state property ↔
      (rest state.lookahead).Ensures state property :=
  ensures_of_eq rfl

@[simp] theorem ensures_kind {rest : Kind → Parse β} :
    (kind >>= rest).Ensures state property ↔
      (rest state.lookahead.kind).Ensures state property :=
  ensures_of_eq rfl

@[simp] theorem ensures_nodeStart {rest : Position → Parse β} :
    (nodeStart >>= rest).Ensures state property ↔
      (rest state.lookahead.span.start).Ensures state property :=
  ensures_of_eq rfl

@[simp] theorem ensures_sees {expected : Kind} {rest : Bool → Parse β} :
    (sees expected >>= rest).Ensures state property ↔
      (rest (state.lookahead.kind == expected)).Ensures state property :=
  ensures_of_eq rfl

@[simp] theorem ensures_isStrict {rest : Bool → Parse β} :
    (isStrict >>= rest).Ensures state property ↔
      (rest state.context.strict).Ensures state property :=
  ensures_of_eq rfl

@[simp] theorem ensures_spanFrom {start : Position} {rest : Span → Parse β} :
    (spanFrom start >>= rest).Ensures state property ↔
      (rest ⟨start, state.consumedEnd⟩).Ensures state property :=
  ensures_of_eq rfl

@[simp] theorem ensures_modify {change : State → State} {rest : Unit → Parse β} :
    ((modify change : Parse Unit) >>= rest).Ensures state property ↔
      (rest ()).Ensures (change state) property :=
  ensures_of_eq rfl

@[simp] theorem ensures_record {event : Event} {rest : Unit → Parse β} :
    (record event >>= rest).Ensures state property ↔
      (rest ()).Ensures { state with events := event :: state.events } property :=
  ensures_of_eq rfl

/-- The cursor moves over the token that an action of the scanner reads. -/
theorem ensures_scan {action : Scan Token} {rest : Token → Parse β}
    (next : ∀ token cursor, action state.cursor = .ok token cursor →
      (rest token).Ensures { state with cursor } property) :
    (scan action >>= rest).Ensures state property := by
  rw [ensures_bind]
  constructor
  intro token after run
  unfold scan at run
  split at run
  · rename_i scanned
    cases run
    exact next _ _ scanned
  · contradiction

theorem ensures_fetch {rest : Token → Parse β}
    (next : ∀ token cursor, Scan.token state.cursor = .ok token cursor →
      (rest token).Ensures { state with cursor, events := .scanned token :: state.events }
        property) :
    (fetch >>= rest).Ensures state property := by
  rw [fetch, bind_assoc]
  apply ensures_scan
  intro token cursor scanned
  rw [bind_assoc, ensures_record, pure_bind]
  exact next token cursor scanned

/-- Code can always become strict, and no token is read for it. -/
theorem enableStrict_ok (state : State) :
    ∃ events, Event.tokens events = Event.tokens state.events ∧ enableStrict state =
      .ok () { state with context := { state.context with strict := true }, events } := by
  cases strict : state.context.strict with
  | true =>
    refine ⟨state.events, rfl, ?_⟩
    change (if state.context.strict = true then _ else _ : Parse Unit) state = _
    rw [if_pos strict, ← strict]
    rfl
  | false =>
    refine ⟨.strictDirective :: state.events, rfl, ?_⟩
    change (if state.context.strict = true then _ else _ : Parse Unit) state = _
    rw [strict]
    rfl

/-- An action in other surroundings ensures what it does there, when they have been left. -/
theorem ensures_within {enter : State → State} {leave : State → State → State}
    {action : Parse β} :
    (within enter leave action).Ensures state property ↔
      action.Ensures (enter state) fun value after => property value (leave state after) := by
  constructor
  · intro ensures
    constructor
    intro value after run
    apply ensures.of_ok
    simp only [within, run]
  · intro ensures
    constructor
    intro value after run
    simp only [within] at run
    split at run
    · rename_i found
      cases run
      exact ensures.of_ok found
    · contradiction

end Ensures

/-- Every result of an action is related to the tokens that it consumed, and to the token after
them. The surroundings stay as they were. -/
def Sound (action : Parse α) (reads : Scope → α → List Token → Token → Prop) : Prop :=
  ∀ state, action.Ensures state fun value after =>
    ∃ tokens, state.Consumes tokens after ∧ reads state.scope value tokens after.lookahead

section Steps

variable {start state : State} {front : List Token} {property : β → State → Prop}

/-- A sound action at the end of another one. -/
theorem Sound.last {action : Parse β} {reads : Scope → β → List Token → Token → Prop}
    (sound : action.Sound reads) (so : start.Consumes front state)
    (holds : ∀ value tokens after, start.Consumes (front ++ tokens) after →
      state.lookahead.Opens tokens after.lookahead →
      reads start.scope value tokens after.lookahead → property value after) :
    action.Ensures state property := by
  constructor
  intro value after run
  obtain ⟨tokens, consumes, related⟩ := (sound state).of_ok run
  rw [so.scope] at related
  exact holds value tokens after (so.trans consumes) consumes.opens related

/-- A sound action and what comes after it. -/
theorem Sound.step {action : Parse α} {rest : α → Parse β}
    {reads : Scope → α → List Token → Token → Prop} (sound : action.Sound reads)
    (so : start.Consumes front state)
    (next : ∀ value tokens after, start.Consumes (front ++ tokens) after →
      state.lookahead.Opens tokens after.lookahead →
      reads start.scope value tokens after.lookahead → (rest value).Ensures after property) :
    (action >>= rest).Ensures state property := by
  rw [ensures_bind]
  exact sound.last so next

/-- A token that is no end of the text is consumed. -/
theorem ensures_consume {rest : Unit → Parse β} (so : start.Consumes front state)
    (inside : state.lookahead.lexeme ≠ .endOfFile)
    (next : ∀ after, start.Consumes (front ++ [state.lookahead]) after →
      (rest ()).Ensures after property) :
    (consume >>= rest).Ensures state property := by
  rw [consume, bind_assoc]
  apply ensures_fetch
  intro token cursor scanned
  rw [ensures_modify]
  apply next
  exact so.trans ⟨rfl, .advance ⟨inside, token, cursor, scanned, rfl⟩ .none⟩

/-- A symbol that must come next is consumed. -/
theorem ensures_require {symbol : Symbol} {rest : Unit → Parse β}
    (so : start.Consumes front state)
    (next : ∀ after, state.lookahead.kind = .symbol symbol →
      start.Consumes (front ++ [state.lookahead]) after → (rest ()).Ensures after property) :
    (require symbol >>= rest).Ensures state property := by
  rw [require, bind_assoc, ensures_sees]
  split
  · rename_i seen
    have found : state.lookahead.kind = .symbol symbol := by simpa using seen
    refine ensures_consume so ?_ fun after => next after found
    intro ended
    simp [Token.kind, ended, Lexeme.kind] at found
  · rw [ensures_bind]
    exact ensures_unexpected

/-- A symbol that may come next is consumed. -/
theorem ensures_consumeIf {symbol : Symbol} {rest : Bool → Parse β}
    (so : start.Consumes front state)
    (found : ∀ after, state.lookahead.kind = .symbol symbol →
      start.Consumes (front ++ [state.lookahead]) after → (rest true).Ensures after property)
    (missed : state.lookahead.kind ≠ .symbol symbol → (rest false).Ensures state property) :
    (consumeIf symbol >>= rest).Ensures state property := by
  rw [consumeIf, bind_assoc, ensures_sees]
  split
  · rename_i seen
    have same : state.lookahead.kind = .symbol symbol := by simpa using seen
    rw [bind_assoc]
    apply ensures_consume so
    · intro ended
      simp [Token.kind, ended, Lexeme.kind] at same
    · intro after consumed
      rw [pure_bind]
      exact found after same consumed
  · rename_i seen
    rw [pure_bind]
    exact missed (by simpa using seen)

end Steps

section Lists

variable {item : Parse α} {reads : Scope → α → List Token → Token → Prop}
  {readsList : Scope → List α → List Token → Token → Prop}

/-- A list ends at once before a token that ends it. -/
theorem ensures_itemsUntil_ended {ends : Kind → Bool} {state : State}
    (ended : ends state.lookahead.kind = true) (turns : Nat) :
    (itemsUntil ends item turns).Ensures state fun items after => items = [] ∧ after = state := by
  cases turns with
  | zero => exact ensures_exhausted
  | succ turns =>
    rw [itemsUntil, ensures_kind, if_pos ended, ensures_pure]
    exact ⟨rfl, rfl⟩

/-- Items up to a token that ends them. An item with such a token after it is the last. -/
theorem Sound.itemsUntil {ends : Kind → Bool} (sound : item.Sound reads)
    (none : ∀ scope (next : Token), ends next.kind = true → readsList scope [] [] next)
    (more : ∀ scope first (follower : Token) others next tokens rest,
      reads scope first tokens follower → follower.Opens rest next →
      (ends follower.kind = true → others = [] ∧ rest = []) →
      readsList scope others rest next → readsList scope (first :: others) (tokens ++ rest) next)
    (turns : Nat) : (itemsUntil ends item turns).Sound readsList := by
  induction turns with
  | zero => exact fun state => ensures_exhausted
  | succ turns ih =>
    intro state
    rw [Parse.itemsUntil, ensures_kind]
    split
    · rename_i ended
      rw [ensures_pure]
      exact ⟨[], .refl state, none _ _ ended⟩
    · apply sound.step (.refl state)
      intro first tokens between consumed _ related
      by_cases ended : ends between.lookahead.kind = true
      · rw [ensures_bind]
        constructor
        intro others after run
        obtain ⟨rfl, rfl⟩ := (ensures_itemsUntil_ended ended turns).of_ok run
        rw [ensures_pure]
        refine ⟨tokens ++ [], by simpa using consumed, ?_⟩
        exact more _ _ _ _ _ _ _ related rfl (fun _ => ⟨rfl, rfl⟩) (none _ _ ended)
      · apply ih.step consumed
        intro others rest after consumed opens relatedOthers
        rw [ensures_pure]
        refine ⟨tokens ++ rest, consumed, ?_⟩
        exact more _ _ _ _ _ _ _ related opens (fun ends => absurd ends ended) relatedOthers

/-- One item or more, with commas between them. -/
theorem Sound.separated (sound : item.Sound reads)
    (one : ∀ scope first tokens (next : Token), reads scope first tokens next →
      next.kind ≠ .symbol Punctuator.comma → readsList scope [first] tokens next)
    (more : ∀ scope first (comma : Token) others next tokens rest,
      reads scope first tokens comma → comma.kind = .symbol Punctuator.comma →
      readsList scope others rest next →
      readsList scope (first :: others) (tokens ++ comma :: rest) next)
    (turns : Nat) : (separated item turns).Sound readsList := by
  induction turns with
  | zero => exact fun state => ensures_exhausted
  | succ turns ih =>
    intro state
    rw [Parse.separated]
    apply sound.step (.refl state)
    intro first tokens between consumed _ related
    apply ensures_consumeIf consumed
    · intro after comma consumed
      apply ih.step consumed
      intro others rest last consumed _ relatedOthers
      rw [ensures_pure]
      refine ⟨tokens ++ between.lookahead :: rest, by simpa using consumed, ?_⟩
      exact more _ _ _ _ _ _ _ related comma relatedOthers
    · intro missed
      rw [if_neg (by simp), ensures_pure]
      exact ⟨tokens, by simpa using consumed, one _ _ _ _ related missed⟩

end Lists

end EcmaScript.Parse
