import EcmaScript.Proofs.Alignment
import EcmaScript.Proofs.LexicalFaults
import EcmaScript.Proofs.TokenText
import Mathlib.Data.Set.Insert

/-!
# Places that faults point at

A fault of the grammar points at a place where a token begins that has been scanned. Not all of
these places come from the lookahead: some were noted down when a construct began, others are taken
from the spans of names and expressions that have been read. So an action is described by the
positions that it may point at because they are known, and by those that its result shows to what
comes after it: whatever an action points at or shows is known, or a token has been scanned that
begins there.
-/

namespace EcmaScript

/-- The positions at which the tokens begin that have been scanned. -/
def Point.starts (point : Point) : Set Position :=
  {position | ∃ token ∈ point.scanned, token.span.start = position}

/-- The lookahead is the token that was scanned last. -/
def Point.SeesLatest (point : Point) : Prop :=
  point.scanned.head? = some point.lookahead

namespace Point

variable {before after : Point}

theorem SeesLatest.start_mem (latest : before.SeesLatest) :
    before.lookahead.span.start ∈ before.starts :=
  ⟨before.lookahead, List.mem_of_mem_head? latest, rfl⟩

/-- A token has been scanned after the others. -/
theorem starts_subset_of_cons {token : Token} (one : after.scanned = token :: before.scanned) :
    before.starts ⊆ after.starts := by
  rintro _ ⟨other, member, rfl⟩
  exact ⟨other, one ▸ List.mem_cons_of_mem token member, rfl⟩

/-- A regular expression begins where its slash did. -/
theorem starts_subset_of_rereads (latest : before.SeesLatest) {token : Token}
    (one : after.scanned = token :: before.scanned.tail)
    (start : token.span.start = before.lookahead.span.start) : before.starts ⊆ after.starts := by
  obtain ⟨others, whole⟩ := List.head?_eq_some_iff.mp latest
  rintro _ ⟨other, member, rfl⟩
  rw [whole, List.mem_cons] at member
  rw [whole, List.tail_cons] at one
  rcases member with rfl | member
  · exact ⟨token, one ▸ List.mem_cons_self, start⟩
  · exact ⟨other, one ▸ List.mem_cons_of_mem token member, rfl⟩

end Point

namespace Parse

variable {α β : Type}

/-- An action points at positions that are known or at which a token begins that has been scanned,
when it ends with a fault of the grammar, and its result shows such positions. No token that has
been scanned before is forgotten. -/
structure Blames (known : Set Position) (action : Parse α) (shows : α → Set Position) : Prop where
  ok : ∀ {state value after}, state.point.SeesLatest → action state = .ok value after →
    after.point.SeesLatest ∧ state.point.starts ⊆ after.point.starts ∧
      shows value ⊆ known ∪ after.point.starts
  error : ∀ {state fault after}, state.point.SeesLatest → action state = .error fault after →
    state.point.starts ⊆ after.point.starts ∧
      (fault.cause.category ≠ .lexical → fault.position ∈ known ∪ after.point.starts)

/-- The result of an action shows nothing. -/
def nowhere : α → Set Position := fun _ => ∅

namespace Blames

variable {known : Set Position}

section Sequences

variable {shows : α → Set Position} {showsRest : β → Set Position} {action : Parse α}
  {rest : α → Parse β}

/-- What the result of an action shows is known to what comes after it. -/
theorem bind (first : action.Blames known shows)
    (second : ∀ value, (rest value).Blames (known ∪ shows value) showsRest) :
    (action >>= rest).Blames known showsRest := by
  -- All that was shown is known, or has been scanned since.
  have collect : ∀ {shown later final : Set Position}, shown ⊆ known ∪ later → later ⊆ final →
      known ∪ shown ∪ final ⊆ known ∪ final := by
    intro shown later final shown_subset grows
    have inFinal := shown_subset.trans (Set.union_subset_union_right known grows)
    exact Set.union_subset (Set.union_subset Set.subset_union_left inFinal) Set.subset_union_right
  constructor
  · intro state result after latest run
    obtain ⟨value, between, runFirst, runRest⟩ := bind_eq_ok.mp run
    obtain ⟨middle, grows, shown⟩ := first.ok latest runFirst
    obtain ⟨last, growsToo, shownRest⟩ := (second value).ok middle runRest
    exact ⟨last, grows.trans growsToo, shownRest.trans (collect shown growsToo)⟩
  · intro state fault after latest run
    rcases bind_eq_error.mp run with failed | ⟨value, between, runFirst, failed⟩
    · exact first.error latest failed
    · obtain ⟨middle, grows, shown⟩ := first.ok latest runFirst
      obtain ⟨growsToo, points⟩ := (second value).error middle failed
      exact ⟨grows.trans growsToo, fun grammatical => collect shown growsToo (points grammatical)⟩

/-- More is known than an action needs, and less is looked for in its result. -/
theorem mono {more : Set Position} {fewer : α → Set Position} (blames : action.Blames known shows)
    (enough : known ⊆ more) (shown : ∀ value, fewer value ⊆ more ∪ shows value) :
    action.Blames more fewer := by
  have wider : ∀ scanned : Set Position, known ∪ scanned ⊆ more ∪ scanned :=
    fun scanned => Set.union_subset_union_left scanned enough
  constructor
  · intro state value after latest run
    obtain ⟨last, grows, inShows⟩ := blames.ok latest run
    refine ⟨last, grows, (shown value).trans ?_⟩
    exact Set.union_subset Set.subset_union_left (inShows.trans (wider _))
  · intro state fault after latest run
    obtain ⟨grows, points⟩ := blames.error latest run
    exact ⟨grows, fun grammatical => wider _ (points grammatical)⟩

/-- The result of an action is not looked at for its places. -/
theorem ignored (blames : action.Blames known shows) : action.Blames known nowhere :=
  blames.mono (Set.Subset.refl known) fun _ => Set.empty_subset _

/-- Nothing was shown. -/
theorem unaided (blames : action.Blames known shows) : action.Blames (known ∪ ∅) shows :=
  blames.mono Set.subset_union_left fun _ => Set.subset_union_right

/-- An action whose result shows nothing. -/
theorem skip (first : action.Blames known nowhere)
    (second : ∀ value, (rest value).Blames known showsRest) :
    (action >>= rest).Blames known showsRest :=
  first.bind fun value => (second value).unaided

/-- An action that only looks at the state. -/
theorem look (view : State → α) (same : ∀ state, action state = .ok (view state) state)
    (shown : ∀ state : State, state.point.SeesLatest →
      shows (view state) ⊆ known ∪ state.point.starts) : action.Blames known shows := by
  constructor
  · intro state value after latest run
    cases (same state).symm.trans run
    exact ⟨latest, Set.Subset.refl _, shown state latest⟩
  · intro state fault after latest run
    cases (same state).symm.trans run

theorem pure {value : α} (shown : shows value ⊆ known) :
    (Pure.pure value : Parse α).Blames known shows :=
  look (fun _ => value) (fun _ => rfl) fun _ _ => shown.trans Set.subset_union_left

theorem done (value : α) : (Pure.pure value : Parse α).Blames known nowhere :=
  .pure (Set.empty_subset known)

theorem map {function : α → β} (blames : action.Blames known shows)
    (same : ∀ value, showsRest (function value) ⊆ known ∪ shows value) :
    (function <$> action).Blames known showsRest := by
  rw [map_eq_pure_bind]
  exact blames.bind fun value => .pure (same value)

theorem wrapped {function : α → β} (blames : action.Blames known shows) :
    (function <$> action).Blames known nowhere :=
  blames.map fun _ => Set.empty_subset _

/-- A fault at a position that is known. -/
theorem fail (cause : Cause) {position : Position} (member : position ∈ known) :
    (Parse.fail cause position : Parse α).Blames known shows := by
  constructor
  · rintro state value after _ ⟨⟩
  · rintro state fault after _ ⟨⟩
    exact ⟨Set.Subset.refl _, fun _ => .inl member⟩

/-- A fault at the lookahead. -/
theorem fail_here {failing : Parse α}
    (points : ∀ state, ∃ cause, failing state = .error ⟨cause, state.lookahead.span.start⟩ state) :
    failing.Blames known shows := by
  constructor
  · intro state value after latest run
    obtain ⟨cause, fails⟩ := points state
    cases fails.symm.trans run
  · intro state fault after latest run
    obtain ⟨cause, fails⟩ := points state
    cases fails.symm.trans run
    exact ⟨Set.Subset.refl _, fun _ => .inr latest.start_mem⟩

/-- What comes after a fault is not reached. -/
theorem fail_bind {γ : Type} (cause : Cause) {position : Position} {rest : γ → Parse α}
    (member : position ∈ known) :
    ((Parse.fail cause position : Parse γ) >>= rest).Blames known shows := by
  constructor
  · rintro state value after _ ⟨⟩
  · rintro state fault after _ ⟨⟩
    exact ⟨Set.Subset.refl _, fun _ => .inl member⟩

theorem unexpected : (Parse.unexpected : Parse α).Blames known shows :=
  fail_here fun _ => ⟨_, rfl⟩

theorem exhausted : (Parse.exhausted : Parse α).Blames known shows :=
  fail_here fun _ => ⟨_, rfl⟩

theorem get : (MonadState.get : Parse State).Blames known nowhere :=
  look id (fun _ => rfl) fun _ _ => Set.empty_subset _

theorem kind : Parse.kind.Blames known nowhere :=
  look (·.lookahead.kind) (fun _ => rfl) fun _ _ => Set.empty_subset _

theorem sees (expected : Kind) : (Parse.sees expected).Blames known nowhere :=
  look (·.lookahead.kind == expected) (fun _ => rfl) fun _ _ => Set.empty_subset _

theorem isStrict : Parse.isStrict.Blames known nowhere :=
  look (·.context.strict) (fun _ => rfl) fun _ _ => Set.empty_subset _

theorem lookahead : Parse.lookahead.Blames known fun token => {token.span.start} :=
  look (·.lookahead) (fun _ => rfl) fun _ latest =>
    Set.singleton_subset_iff.mpr (.inr latest.start_mem)

theorem nodeStart : Parse.nodeStart.Blames known fun start => {start} :=
  look (·.lookahead.span.start) (fun _ => rfl) fun _ latest =>
    Set.singleton_subset_iff.mpr (.inr latest.start_mem)

/-- A node that begins at a position that is known. -/
theorem spanFrom {start : Position} (member : start ∈ known) :
    (Parse.spanFrom start).Blames known fun span => {span.start} :=
  look (fun state => ⟨start, state.consumedEnd⟩) (fun _ => rfl) fun _ _ =>
    Set.singleton_subset_iff.mpr (.inl member)

/-- A node whose place is not looked at. -/
theorem spanned (start : Position) : (Parse.spanFrom start).Blames known nowhere :=
  look (fun state => ⟨start, state.consumedEnd⟩) (fun _ => rfl) fun _ _ => Set.empty_subset _

theorem enableStrict : Parse.enableStrict.Blames known nowhere := by
  constructor
  · intro state value after latest run
    obtain ⟨events, same, succeeds⟩ := enableStrict_ok state
    cases succeeds.symm.trans run
    refine ⟨?_, ?_, Set.empty_subset _⟩
    · change (Event.tokens events).head? = some state.lookahead
      rw [same]
      exact latest
    · rintro position ⟨token, member, start⟩
      refine ⟨token, ?_, start⟩
      change token ∈ Event.tokens events
      rw [same]
      exact member
  · intro state fault after latest run
    obtain ⟨events, same, succeeds⟩ := enableStrict_ok state
    cases succeeds.symm.trans run

end Sequences

section Choices

variable {condition : Prop} [Decidable condition] {shows : α → Set Position}
  {showsRest : β → Set Position}

theorem choice {yes no : Parse α} (left : yes.Blames known shows) (right : no.Blames known shows) :
    (if condition then yes else no).Blames known shows := by
  split
  · exact left
  · exact right

/-- One of two actions, and then the same for both. -/
theorem either {yes no : Parse α} {rest : α → Parse β} (left : yes.Blames known shows)
    (right : no.Blames known shows)
    (both : ∀ value, (rest value).Blames (known ∪ shows value) showsRest) :
    (if condition then yes >>= rest else no >>= rest).Blames known showsRest :=
  .choice (left.bind both) (right.bind both)

/-- One of two actions whose results show nothing, and then the same for both. -/
theorem option {yes no : Parse α} {rest : α → Parse β} (left : yes.Blames known nowhere)
    (right : no.Blames known nowhere)
    (both : ∀ value, (rest value).Blames known showsRest) :
    (if condition then yes >>= rest else no >>= rest).Blames known showsRest :=
  .choice (left.skip both) (right.skip both)

/-- A fault at a position that is known, unless something holds. -/
theorem need {cause : Cause} {position : Position} {passed : Parse β} {rest : α → Parse β}
    (member : position ∈ known) (holds : passed.Blames known showsRest) :
    (if condition then passed else Parse.fail cause position >>= rest).Blames known showsRest :=
  .choice holds (.fail_bind cause member)

/-- A fault at a position that is known, if something holds. -/
theorem refuse {cause : Cause} {position : Position} {passed : Parse β} {rest : α → Parse β}
    (member : position ∈ known) (holds : passed.Blames known showsRest) :
    (if condition then Parse.fail cause position >>= rest else passed).Blames known showsRest :=
  .choice (.fail_bind cause member) holds

end Choices

section Tokens

theorem consume : Parse.consume.Blames known nowhere := by
  constructor
  · intro state value after latest run
    obtain ⟨token, cursor, scanned, rfl⟩ := consume_eq_ok.mp run
    exact ⟨rfl, Point.starts_subset_of_cons rfl, Set.empty_subset _⟩
  · intro state fault after latest run
    obtain ⟨cursor, failed, rfl⟩ := consume_eq_error.mp run
    refine ⟨Set.Subset.refl _, fun grammatical => ?_⟩
    exact absurd (Scan.lexical_of_token failed).1 grammatical

theorem reread (front : List Char) : (Parse.reread front).Blames known nowhere := by
  constructor
  · intro state value after latest run
    obtain ⟨token, cursor, scanned, rfl⟩ := reread_eq_ok.mp run
    obtain ⟨length, rereads⟩ := Scan.rereadsAs_of_regularExpression scanned
    refine ⟨rfl, ?_, Set.empty_subset _⟩
    exact Point.starts_subset_of_rereads latest rfl rereads.spanStart
  · intro state fault after latest run
    obtain ⟨cursor, failed, rfl⟩ := reread_eq_error.mp run
    refine ⟨Set.Subset.refl _, fun grammatical => ?_⟩
    exact absurd (Scan.lexical_of_regularExpression failed).1 grammatical

theorem require (expected : Kind) : (Parse.require expected).Blames known nowhere := by
  rw [Parse.require]
  refine .skip (.sees _) fun found => ?_
  exact .choice .consume .unexpected

theorem consumeIf (expected : Kind) : (Parse.consumeIf expected).Blames known nowhere := by
  rw [Parse.consumeIf]
  refine .skip (.sees _) fun found => ?_
  exact .choice (.skip .consume fun _ => .done _) (.done _)

theorem semicolon : Parse.semicolon.Blames known nowhere := by
  rw [Parse.semicolon]
  refine .skip (.consumeIf _) fun found => ?_
  refine .choice (.done _) ?_
  refine .skip (ignored .lookahead) fun token => ?_
  exact .choice (.done _) .unexpected

end Tokens

section Surroundings

variable {shows : α → Set Position} {action : Parse α}

/-- Other surroundings are no other tokens. -/
theorem within {enter : State → State} {leave : State → State → State}
    (entered : ∀ state, (enter state).point = state.point)
    (left : ∀ before after, (leave before after).point = after.point)
    (blames : action.Blames known shows) :
    (Parse.within enter leave action).Blames known shows := by
  constructor
  · intro state value after latest run
    obtain ⟨between, inner, rfl⟩ := within_eq_ok.mp run
    have inside := blames.ok ((entered state).symm ▸ latest) inner
    rw [entered] at inside
    rwa [left]
  · intro state fault after latest run
    obtain ⟨between, inner, rfl⟩ := within_eq_error.mp run
    have inside := blames.error ((entered state).symm ▸ latest) inner
    rw [entered] at inside
    rwa [left]

theorem inContext (change : Context → Context) (blames : action.Blames known shows) :
    (Parse.inContext change action).Blames known shows :=
  .within (fun _ => rfl) (fun _ _ => rfl) blames

theorem withIn (blames : action.Blames known shows) : (Parse.withIn action).Blames known shows :=
  blames.inContext _

theorem withoutIn (blames : action.Blames known shows) :
    (Parse.withoutIn action).Blames known shows :=
  blames.inContext _

theorem inLoop (blames : action.Blames known shows) : (Parse.inLoop action).Blames known shows :=
  blames.inContext _

theorem inSwitch (blames : action.Blames known shows) :
    (Parse.inSwitch action).Blames known shows :=
  blames.inContext _

theorem inFunction (blames : action.Blames known shows) :
    (Parse.inFunction action).Blames known shows :=
  .within (fun _ => rfl) (fun _ _ => rfl) blames

theorem withLabel (label : String) (blames : action.Blames known shows) :
    (Parse.withLabel label action).Blames known shows :=
  .within (fun _ => rfl) (fun _ _ => rfl) blames

end Surroundings

section Lists

variable {item : Parse α}

theorem itemsUntil (ends : Kind → Bool) (blames : item.Blames known nowhere) (turns : Nat) :
    (Parse.itemsUntil ends item turns).Blames known nowhere := by
  induction turns with
  | zero => exact .exhausted
  | succ turns ih =>
    rw [Parse.itemsUntil]
    refine .skip .kind fun kind => ?_
    refine .choice (.done _) ?_
    refine .skip blames fun first => ?_
    exact .skip ih fun others => .done _

theorem separated (blames : item.Blames known nowhere) (turns : Nat) :
    (Parse.separated item turns).Blames known nowhere := by
  induction turns with
  | zero => exact .exhausted
  | succ turns ih =>
    rw [Parse.separated]
    refine .skip blames fun first => ?_
    refine .skip (.consumeIf _) fun found => ?_
    refine .choice ?_ (.done _)
    exact .skip ih fun others => .done _

end Lists

section Names

theorem identifierReference :
    Parse.identifierReference.Blames known fun name => {name.span.start} := by
  rw [Parse.identifierReference]
  refine .bind .lookahead fun token => ?_
  split
  · refine .skip .consume fun _ => ?_
    refine .skip .isStrict fun strict => ?_
    exact .refuse (.inr rfl) (.pure Set.subset_union_right)
  · exact .unexpected

theorem bindingIdentifier :
    Parse.bindingIdentifier.Blames known fun name => {name.span.start} := by
  rw [Parse.bindingIdentifier]
  refine .bind .identifierReference fun name => ?_
  refine .skip .isStrict fun strict => ?_
  exact .refuse (.inr rfl) (.pure Set.subset_union_right)

theorem identifierName : Parse.identifierName.Blames known nowhere := by
  rw [Parse.identifierName]
  refine .skip (ignored .lookahead) fun token => ?_
  exact .choice (.skip .consume fun _ => .done _) .unexpected

end Names

end Blames

end Parse

end EcmaScript
