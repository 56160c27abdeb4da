import EcmaScript.Proofs.Alignment
import EcmaScript.Proofs.LexicalFaults
import EcmaScript.Proofs.Placement
import EcmaScript.Proofs.TokenText

/-!
# Actions that settle within their budget

The text that lies ahead of a parse bounds how long it can go on, since each token takes up a
character. An action settles when it does not run out of its budget, and no more text lies ahead of
it afterwards than before, less by one at least for every token that it consumes.
-/

namespace EcmaScript

/-- The number of characters of a token, which has one at least unless it is the end. -/
def Token.width (token : Token) : Nat :=
  if token.lexeme = .endOfFile then 0 else max 1 token.text.length

theorem Token.width_pos {token : Token} (inside : token.lexeme ≠ .endOfFile) : 0 < token.width := by
  rw [width, if_neg inside]
  omega

/-- The number of characters ahead of a point, with those of the lookahead. -/
def Point.ahead (point : Point) : Nat :=
  point.cursor.rest.length + point.lookahead.width

/-- The number of characters ahead of a parse, with those of the lookahead. -/
def State.ahead (state : State) : Nat :=
  state.point.ahead

/-- The number of tokens that have been scanned so far. -/
def State.progress (state : State) : Nat :=
  state.point.scanned.length

/-- An action ends with a result or a fault that its text has, and comes forward by some number of
tokens at least when it has a result, and by a character for each. -/
structure Parse.Settles {α : Type} (action : Parse α) (state : State) (least : Nat) : Prop where
  ok : ∀ {value next}, action state = .ok value next →
    next.ahead + least ≤ state.ahead ∧ state.progress + least ≤ next.progress
  error : ∀ {fault next}, action state = .error fault next → fault.cause ≠ .exhausted

/-- A token takes up its characters of the text. -/
theorem Scan.rest_of_token {cursor after : Cursor} {next : Token}
    (scanned : token cursor = .ok next after) :
    after.rest.length + next.width ≤ cursor.rest.length := by
  obtain ⟨gap, length, reads⟩ := reads_of_token scanned
  obtain ⟨flags, read⟩ := reads.lexeme
  have inside := Lexeme.length_read_le (cursor.pass gap).rest
  rw [read] at inside
  have rest : after.rest.length + length = (cursor.pass gap).rest.length := by
    rw [reads.moves]
    change ((cursor.pass gap).rest.drop length).length + length = _
    rw [List.length_drop]
    exact Nat.sub_add_cancel inside
  have gapLe : (cursor.pass gap).rest.length ≤ cursor.rest.length := by
    rw [Cursor.rest_pass, List.length_drop]
    omega
  rw [Token.width]
  split
  · omega
  · rename_i notEnd
    have some := (Lexeme.pos_of_read read notEnd).1
    have text : next.text.length = length := by
      rw [reads.text, String.length_ofList]
      exact List.length_take_of_le inside
    omega

/-- A slash that is read again takes up the characters that follow it. -/
theorem Scan.rest_of_regularExpression {slash next : Token} {front : List Char}
    {cursor after : Cursor} (scanned : regularExpression slash front cursor = .ok next after)
    (found : slash? slash.lexeme = some front) :
    after.rest.length + next.width ≤ cursor.rest.length + slash.width ∧
      (slash.text ≠ "" → after.rest.length + next.width = cursor.rest.length + slash.width) := by
  obtain ⟨length, rereads⟩ := rereadsAs_of_regularExpression scanned
  have inside := RegularExpression.length_read_le front cursor.rest
  rw [rereads.expression] at inside
  have inside : length ≤ cursor.rest.length := inside
  have rest : after.rest.length + length = cursor.rest.length := by
    rw [rereads.moves, Cursor.rest_pass, List.length_drop]
    exact Nat.sub_add_cancel inside
  have text : next.text.length = slash.text.length + length := by
    rw [rereads.text, String.length_append, String.length_ofList, List.length_take_of_le inside]
  have isSlash : slash.lexeme ≠ .endOfFile := by
    intro ended
    simp [ended, slash?] at found
  have isExpression : next.lexeme ≠ .endOfFile := by
    have read := rereads.expression
    intro ended
    rw [ended] at read
    unfold RegularExpression.read at read
    split at read
    · cases read
    · dsimp only at read
      split at read <;> cases read
  rw [Token.width, Token.width, if_neg isSlash, if_neg isExpression]
  refine ⟨by omega, fun nonempty => ?_⟩
  have some : 0 < slash.text.length :=
    Nat.pos_of_ne_zero fun none => nonempty (String.length_eq_zero_iff.mp none)
  omega

namespace Parse

variable {α β : Type} {state : State} {least : Nat}

theorem settles_of_eq {first second : Parse α} (same : first state = second state)
    (settles : second.Settles state least) : first.Settles state least :=
  ⟨fun run => settles.ok (same.symm.trans run), fun run => settles.error (same.symm.trans run)⟩

section Looks

variable {rest : Token → Parse β}

@[simp] theorem settles_lookahead :
    (lookahead >>= rest).Settles state least ↔ (rest state.lookahead).Settles state least :=
  ⟨settles_of_eq rfl, settles_of_eq rfl⟩

@[simp] theorem settles_kind {rest : Kind → Parse β} :
    (kind >>= rest).Settles state least ↔ (rest state.lookahead.kind).Settles state least :=
  ⟨settles_of_eq rfl, settles_of_eq rfl⟩

@[simp] theorem settles_nodeStart {rest : Position → Parse β} :
    (nodeStart >>= rest).Settles state least ↔
      (rest state.lookahead.span.start).Settles state least :=
  ⟨settles_of_eq rfl, settles_of_eq rfl⟩

@[simp] theorem settles_sees {expected : Kind} {rest : Bool → Parse β} :
    (sees expected >>= rest).Settles state least ↔
      (rest (state.lookahead.kind == expected)).Settles state least :=
  ⟨settles_of_eq rfl, settles_of_eq rfl⟩

@[simp] theorem settles_get {rest : State → Parse β} :
    ((get : Parse State) >>= rest).Settles state least ↔ (rest state).Settles state least :=
  ⟨settles_of_eq rfl, settles_of_eq rfl⟩

@[simp] theorem settles_isStrict {rest : Bool → Parse β} :
    (isStrict >>= rest).Settles state least ↔
      (rest state.context.strict).Settles state least :=
  ⟨settles_of_eq rfl, settles_of_eq rfl⟩

@[simp] theorem settles_spanFrom {start : Position} {rest : Span → Parse β} :
    (spanFrom start >>= rest).Settles state least ↔
      (rest ⟨start, state.consumedEnd⟩).Settles state least :=
  ⟨settles_of_eq rfl, settles_of_eq rfl⟩

end Looks

namespace Settles

theorem mono {action : Parse α} {more : Nat} (settles : action.Settles state more)
    (enough : least ≤ more) : action.Settles state least :=
  ⟨fun run =>
    have ⟨behind, further⟩ := settles.ok run
    ⟨Nat.le_trans (Nat.add_le_add_left enough _) behind,
      Nat.le_trans (Nat.add_le_add_left enough _) further⟩,
    settles.error⟩

theorem pure (value : α) : (Pure.pure value : Parse α).Settles state 0 := by
  constructor
  · rintro _ _ ⟨⟩
    exact ⟨Nat.le_refl _, Nat.le_refl _⟩
  · rintro _ _ ⟨⟩

theorem fail {cause : Cause} {position : Position} (possible : cause ≠ .exhausted) :
    (Parse.fail cause position : Parse α).Settles state least := by
  constructor
  · rintro _ _ ⟨⟩
  · rintro _ _ ⟨⟩
    exact possible

theorem fail_bind {cause : Cause} {position : Position} {rest : α → Parse β}
    (possible : cause ≠ .exhausted) :
    ((Parse.fail cause position : Parse α) >>= rest).Settles state least := by
  constructor
  · rintro _ _ ⟨⟩
  · rintro _ _ ⟨⟩
    exact possible

theorem unexpected : (Parse.unexpected : Parse α).Settles state least := by
  rw [Parse.unexpected, settles_lookahead]
  exact fail (by rw [Token.unexpected]; rintro ⟨⟩)

theorem bind {action : Parse α} {rest : α → Parse β} {one : Nat}
    (first : action.Settles state one)
    (second : ∀ value next, next.ahead + one ≤ state.ahead →
      (rest value).Settles next (least - one)) :
    (action >>= rest).Settles state least := by
  constructor
  · intro value last run
    obtain ⟨found, next, run, runRest⟩ := bind_eq_ok.mp run
    have behind := first.ok run
    have further := (second found next behind.1).ok runRest
    omega
  · intro fault last run
    rcases bind_eq_error.mp run with run | ⟨found, next, run, runRest⟩
    · exact first.error run
    · exact (second found next (first.ok run).1).error runRest

theorem map {action : Parse α} {function : α → β} (settles : action.Settles state least) :
    (function <$> action).Settles state least := by
  rw [map_eq_pure_bind]
  apply settles.bind
  intro value next _
  rw [Nat.sub_self]
  exact .pure _

theorem consume (inside : state.lookahead.lexeme ≠ .endOfFile) : Parse.consume.Settles state 1 := by
  constructor
  · intro value next run
    obtain ⟨token, cursor, scanned, rfl⟩ := consume_eq_ok.mp run
    have rest := Scan.rest_of_token scanned
    have some := Token.width_pos inside
    refine ⟨?_, Nat.le_refl _⟩
    change cursor.rest.length + token.width + 1 ≤ state.cursor.rest.length + state.lookahead.width
    omega
  · intro fault next run
    obtain ⟨cursor, scanned, rfl⟩ := consume_eq_error.mp run
    intro exhausted
    have lexical := (Scan.lexical_of_token scanned).1
    rw [exhausted] at lexical
    cases lexical

/-- A token is consumed, and then the action goes on. -/
theorem consumes {rest : Unit → Parse β} (inside : state.lookahead.lexeme ≠ .endOfFile)
    (second : ∀ next, next.ahead + 1 ≤ state.ahead → (rest ()).Settles next (least - 1)) :
    (Parse.consume >>= rest).Settles state least :=
  (consume inside).bind fun _ => second

theorem require {symbol : Symbol} {rest : Unit → Parse β}
    (second : ∀ next, next.ahead + 1 ≤ state.ahead → (rest ()).Settles next (least - 1)) :
    (Parse.require symbol >>= rest).Settles state least := by
  rw [Parse.require, bind_assoc, settles_sees]
  split
  · rename_i seen
    exact consumes (Alignment.lexeme_ne_endOfFile (by simpa using seen)) second
  · rw [Parse.unexpected, bind_assoc, settles_lookahead]
    exact fail_bind (by rw [Token.unexpected]; rintro ⟨⟩)

theorem consumeIf {symbol : Symbol} {rest : Bool → Parse β}
    (hit : ∀ next, next.ahead + 1 ≤ state.ahead → (rest true).Settles next (least - 1))
    (miss : (rest false).Settles state least) :
    (Parse.consumeIf symbol >>= rest).Settles state least := by
  rw [consumeIf_bind, settles_lookahead]
  split
  · rename_i found
    exact consumes (Alignment.lexeme_ne_endOfFile found) hit
  · exact miss

theorem semicolon {rest : Unit → Parse β}
    (second : ∀ next, next.ahead ≤ state.ahead → (rest ()).Settles next least) :
    (Parse.semicolon >>= rest).Settles state least := by
  have settles : Parse.semicolon.Settles state 0 := by
    rw [Parse.semicolon]
    apply consumeIf
    · intro next behind
      exact (Settles.pure ()).mono (Nat.zero_le _)
    · rw [if_neg Bool.false_ne_true, settles_lookahead]
      split
      · exact .pure ()
      · exact .unexpected
  exact settles.bind fun _ next behind => second next behind

theorem require_last {symbol : Symbol} : (Parse.require symbol).Settles state 1 := by
  have whole : (Parse.require symbol >>= Pure.pure).Settles state 1 :=
    require fun next _ => .pure ()
  rwa [bind_pure] at whole

theorem reread {front : List Char} (slash : Scan.slash? state.lookahead.lexeme = some front) :
    (Parse.reread front).Settles state 0 := by
  constructor
  · intro value next run
    obtain ⟨token, cursor, scanned, rfl⟩ := reread_eq_ok.mp run
    refine ⟨(Scan.rest_of_regularExpression scanned slash).1, ?_⟩
    change (Event.tokens state.events).length + 0 ≤ (Event.tokens state.events).tail.length + 1
    rw [List.length_tail]
    omega
  · intro fault next run
    obtain ⟨cursor, scanned, rfl⟩ := reread_eq_error.mp run
    intro exhausted
    have lexical := (Scan.lexical_of_regularExpression scanned).1
    rw [exhausted] at lexical
    cases lexical

theorem enableStrict : Parse.enableStrict.Settles state 0 := by
  obtain ⟨events, same, succeeds⟩ := enableStrict_ok state
  constructor
  · intro value next run
    rw [succeeds] at run
    cases run
    exact ⟨Nat.le_refl _, Nat.le_of_eq (congrArg List.length same.symm)⟩
  · intro fault next run
    rw [succeeds] at run
    cases run

/-- An action in other surroundings, which have the same text ahead. -/
theorem within {action : Parse α} {enter : State → State} {leave : State → State → State}
    (enters : (enter state).point = state.point)
    (leaves : ∀ next : State, (leave state next).point = next.point)
    (inner : ∀ inside : State, inside.ahead = state.ahead → action.Settles inside least) :
    (Parse.within enter leave action).Settles state least := by
  have settles := inner (enter state) (congrArg Point.ahead enters)
  constructor
  · intro value last run
    obtain ⟨between, found, rfl⟩ := within_eq_ok.mp run
    simp only [State.ahead, State.progress, leaves]
    rw [← enters]
    exact settles.ok found
  · intro fault last run
    obtain ⟨between, found, rfl⟩ := within_eq_error.mp run
    exact settles.error found

section Surroundings

variable {action : Parse α}
  (inner : ∀ inside : State, inside.ahead = state.ahead → action.Settles inside least)

include inner

theorem inContext {change : Context → Context} :
    (Parse.inContext change action).Settles state least :=
  within rfl (fun _ => rfl) inner

theorem inFunction : (Parse.inFunction action).Settles state least :=
  within rfl (fun _ => rfl) inner

theorem withLabel {label : String} : (Parse.withLabel label action).Settles state least :=
  within rfl (fun _ => rfl) inner

end Surroundings

section Lists

variable {item : Parse α}

/-- Items come forward each, so that there are fewer of them than characters ahead. -/
theorem itemsUntil {ends : Kind → Bool} {turns : Nat}
    (each : ∀ next : State, next.ahead ≤ state.ahead → item.Settles next 1)
    (enough : state.ahead < turns) : (Parse.itemsUntil ends item turns).Settles state 0 := by
  induction turns generalizing state with
  | zero => exact absurd enough (Nat.not_lt_zero _)
  | succ turns ih =>
    rw [Parse.itemsUntil, settles_kind]
    split
    · exact .pure _
    · apply (each state (Nat.le_refl _)).bind
      intro first next behind
      refine (ih (fun last further => each last (by omega)) (by omega)).bind ?_
      intro others last _
      exact .pure _

theorem separated {turns : Nat}
    (each : ∀ next : State, next.ahead ≤ state.ahead → item.Settles next 1)
    (enough : state.ahead < turns) : (Parse.separated item turns).Settles state 1 := by
  induction turns generalizing state with
  | zero => exact absurd enough (Nat.not_lt_zero _)
  | succ turns ih =>
    rw [Parse.separated]
    apply (each state (Nat.le_refl _)).bind
    intro first next behind
    apply consumeIf
    · intro after further
      refine ((ih (fun last beyond => each last (by omega)) (by omega)).mono
        (Nat.zero_le 1)).bind ?_
      intro others last _
      exact .pure _
    · exact .pure _

end Lists

end Settles

end Parse

end EcmaScript
