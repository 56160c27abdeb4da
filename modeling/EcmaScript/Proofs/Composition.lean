import EcmaScript.Proofs.Alignment
import EcmaScript.Proofs.LexicalFaults

/-!
# Actions and what they enter

An action of the grammar is composed of few others: it asks the scanner for the next token or for a
regular expression, looks at the state, or refuses what it sees, and does so one after the other and
in changed surroundings. What one action enters while it runs can be told from the way in which it
is composed. What is known of every point that the scanner leads to is known wherever an action is
entered, and the fault of a scan is the fault of every action that has entered it.
-/

namespace EcmaScript

/-- What is known of a point is known of the next one, when the lookahead is consumed or read again.
-/
structure Point.IsKept (holds : Point → Prop) : Prop where
  token : ∀ {point : Point} {next : Token} {cursor : Cursor}, holds point →
    Scan.token point.cursor = .ok next cursor →
    holds ⟨cursor, next, point.lookahead.span.stop, next :: point.scanned⟩
  regularExpression : ∀ {point : Point} {front : List Char} {next : Token} {cursor : Cursor},
    holds point → Scan.regularExpression point.lookahead front point.cursor = .ok next cursor →
    holds ⟨cursor, next, point.consumedEnd, next :: point.scanned.tail⟩

namespace Parse

variable {α β γ : Type}

/-- An action of the grammar. -/
inductive IsComposed : {α : Type} → Parse α → Prop where
  /-- It stays where it is, whatever it may find out or record. -/
  | stay {α : Type} {action : Parse α} :
      (∀ state, ∃ value next, action state = .ok value next ∧ next.point = state.point) →
      IsComposed action
  /-- It refuses what it sees. -/
  | refuse {α : Type} {action : Parse α} :
      (∀ state, ∃ fault, action state = .error fault state ∧ fault.cause.category ≠ .lexical) →
      IsComposed action
  | consume : IsComposed consume
  | reread (front : List Char) : IsComposed (reread front)
  | bind {α β : Type} {first : Parse α} {rest : α → Parse β} : IsComposed first →
      (∀ value, IsComposed (rest value)) → IsComposed (first >>= rest)
  | within {α : Type} {enter : State → State} {leave : State → State → State} {action : Parse α} :
      (∀ state, (enter state).point = state.point) →
      (∀ before after, (leave before after).point = after.point) →
      IsComposed action → IsComposed (within enter leave action)

/-- An action is entered at a state when another one runs: that other one is the action itself, or
begins with a part in which it is entered, or goes on with one when its first part has succeeded. -/
inductive IsEntered (inner : Parse γ) (entry : State) : {α : Type} → Parse α → State → Prop where
  | here : IsEntered inner entry inner entry
  | first {α β : Type} {first : Parse α} {rest : α → Parse β} {state : State} :
      IsEntered inner entry first state → IsEntered inner entry (first >>= rest) state
  | rest {α β : Type} {first : Parse α} {rest : α → Parse β} {state between : State} {value : α} :
      first.IsComposed → first state = .ok value between →
      IsEntered inner entry (rest value) between → IsEntered inner entry (first >>= rest) state
  | within {α : Type} {enter : State → State} {leave : State → State → State} {action : Parse α}
      {state : State} :
      (∀ state, (enter state).point = state.point) →
      (∀ before after, (leave before after).point = after.point) →
      IsEntered inner entry action (enter state) →
      IsEntered inner entry (within enter leave action) state

/-- The two actions that ask the scanner for a token. -/
inductive Scans : Parse Unit → Prop where
  | consume : Scans consume
  | reread (front : List Char) : Scans (reread front)

namespace Scans

variable {action : Parse Unit}

theorem isComposed (scans : action.Scans) : action.IsComposed := by
  cases scans with
  | consume => exact .consume
  | reread front => exact .reread front

/-- The lookahead is replaced by a token that has been scanned, and stays when none is. -/
theorem lookahead_of_fault (scans : action.Scans) {state stopped : State} {fault : Fault}
    (failed : action state = .error fault stopped) :
    stopped.lookahead = state.lookahead ∧ fault.cause.category = .lexical := by
  cases scans with
  | consume =>
    obtain ⟨cursor, scanned, rfl⟩ := consume_eq_error.mp failed
    exact ⟨rfl, (Scan.lexical_of_token scanned).1⟩
  | reread front =>
    obtain ⟨cursor, scanned, rfl⟩ := reread_eq_error.mp failed
    exact ⟨rfl, (Scan.lexical_of_regularExpression scanned).1⟩

theorem keeps {holds : Point → Prop} (kept : Point.IsKept holds) (scans : action.Scans)
    {state after : State} (before : holds state.point) (run : action state = .ok () after) :
    holds after.point := by
  cases scans with
  | consume =>
    obtain ⟨token, cursor, scanned, rfl⟩ := consume_eq_ok.mp run
    exact kept.token before scanned
  | reread front =>
    obtain ⟨token, cursor, scanned, rfl⟩ := reread_eq_ok.mp run
    exact kept.regularExpression before scanned

end Scans

/-- What is kept from point to point holds behind every action that succeeds. -/
theorem IsComposed.keeps {holds : Point → Prop} (kept : Point.IsKept holds) {action : Parse α}
    (composed : action.IsComposed) {state after : State} {value : α} (before : holds state.point)
    (run : action state = .ok value after) : holds after.point := by
  induction composed generalizing state after with
  | stay same =>
    obtain ⟨found, next, succeeds, point⟩ := same state
    cases succeeds.symm.trans run
    rwa [point]
  | refuse fails =>
    obtain ⟨fault, fails, -⟩ := fails state
    cases fails.symm.trans run
  | consume => exact Scans.consume.keeps kept before run
  | reread front => exact (Scans.reread front).keeps kept before run
  | bind _ _ ihFirst ihRest =>
    obtain ⟨found, between, runFirst, runRest⟩ := bind_eq_ok.mp run
    exact ihRest found (ihFirst before runFirst) runRest
  | within entered left _ ih =>
    obtain ⟨between, inside, rfl⟩ := within_eq_ok.mp run
    rw [left]
    exact ih ((entered state).symm ▸ before) inside

/-- A malformed token is found in an action that asks the scanner for it. -/
theorem IsComposed.exists_scan {action : Parse α} (composed : action.IsComposed)
    {state after : State} {fault : Fault} (failed : action state = .error fault after)
    (lexical : fault.cause.category = .lexical) :
    ∃ (scan : Parse Unit) (asked stopped : State), scan.Scans ∧ scan.IsEntered asked action state ∧
      scan asked = .error fault stopped ∧ after.point = stopped.point := by
  induction composed generalizing state after with
  | stay same =>
    obtain ⟨found, next, succeeds, -⟩ := same state
    cases succeeds.symm.trans failed
  | refuse fails =>
    obtain ⟨other, fails, grammatical⟩ := fails state
    cases fails.symm.trans failed
    exact absurd lexical grammatical
  | consume => exact ⟨_, _, _, .consume, .here, failed, rfl⟩
  | reread front => exact ⟨_, _, _, .reread front, .here, failed, rfl⟩
  | bind composedFirst _ ihFirst ihRest =>
    -- The scan is in the part that has failed. What comes after a failed part does not run.
    rcases bind_eq_error.mp failed with failedFirst | ⟨found, between, runFirst, failedRest⟩
    · obtain ⟨scan, asked, stopped, scans, entered, fails, point⟩ := ihFirst failedFirst
      exact ⟨scan, asked, stopped, scans, .first entered, fails, point⟩
    · obtain ⟨scan, asked, stopped, scans, entered, fails, point⟩ := ihRest found failedRest
      exact ⟨scan, asked, stopped, scans, .rest composedFirst runFirst entered, fails, point⟩
  | within enters leaves _ ih =>
    obtain ⟨between, inside, rfl⟩ := within_eq_error.mp failed
    obtain ⟨scan, asked, stopped, scans, entered, fails, point⟩ := ih inside
    exact ⟨scan, asked, stopped, scans, .within enters leaves entered, fails,
      (leaves _ _).trans point⟩

namespace IsEntered

variable {inner : Parse γ} {entry : State} {action : Parse α} {state : State}

/-- What is kept from point to point holds wherever an action is entered. -/
theorem keeps {holds : Point → Prop} (kept : Point.IsKept holds)
    (entered : inner.IsEntered entry action state) (before : holds state.point) :
    holds entry.point := by
  induction entered with
  | here => exact before
  | first _ ih => exact ih before
  | rest composed run _ ih => exact ih (composed.keeps kept before run)
  | within enters _ _ ih => exact ih ((enters _).symm ▸ before)

/-- An action ends with the fault of an action that it has entered, at the same point. -/
theorem fails (entered : inner.IsEntered entry action state) {fault : Fault} {stopped : State}
    (failed : inner entry = .error fault stopped) :
    ∃ after, action state = .error fault after ∧ after.point = stopped.point := by
  induction entered with
  | here => exact ⟨stopped, failed, rfl⟩
  | first _ ih =>
    obtain ⟨after, fails, point⟩ := ih
    exact ⟨after, bind_eq_error.mpr (.inl fails), point⟩
  | rest _ run _ ih =>
    obtain ⟨after, fails, point⟩ := ih
    exact ⟨after, bind_eq_error.mpr (.inr ⟨_, _, run, fails⟩), point⟩
  | within _ leaves _ ih =>
    obtain ⟨after, fails, point⟩ := ih
    exact ⟨_, within_eq_error.mpr ⟨after, fails, rfl⟩, (leaves _ _).trans point⟩

/-- What an entered action enters is entered as well. -/
theorem trans {middle : Parse β} {between : State} (left : inner.IsEntered entry middle between)
    (right : middle.IsEntered between action state) : inner.IsEntered entry action state := by
  induction right with
  | here => exact left
  | first _ ih => exact .first ih
  | rest composed run _ ih => exact .rest composed run ih
  | within enters leaves _ ih => exact .within enters leaves ih

end IsEntered

namespace IsComposed

/-- An action that only looks at the state. -/
theorem look {action : Parse α} (view : State → α)
    (same : ∀ state, action state = .ok (view state) state) : action.IsComposed :=
  .stay fun state => ⟨view state, state, same state, rfl⟩

theorem pure (value : α) : (Pure.pure value : Parse α).IsComposed :=
  look (fun _ => value) fun _ => rfl

theorem lookahead : Parse.lookahead.IsComposed :=
  look (·.lookahead) fun _ => rfl

theorem enableStrict : Parse.enableStrict.IsComposed := by
  refine .stay fun state => ?_
  obtain ⟨events, same, succeeds⟩ := enableStrict_ok state
  exact ⟨_, _, succeeds, congrArg (Point.mk _ _ _) same⟩

theorem choice {condition : Prop} [Decidable condition] {yes no : Parse α}
    (left : yes.IsComposed) (right : no.IsComposed) :
    (if condition then yes else no).IsComposed := by
  split
  · exact left
  · exact right

end IsComposed

end Parse

end EcmaScript
