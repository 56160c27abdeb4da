import EcmaScript.Proofs.Rules

/-!
# Tokens that a parse consumes

Between two moments a parse consumes some tokens, one after the other, each of them as it stood in
the lookahead or read again as a regular expression. `State.Consumes` says so of two states with the
same surroundings. The tokens consumed since the beginning can be found in the events.
-/

namespace EcmaScript

/-- The tokens that have been scanned, the latest first. A slash that was read again is replaced. -/
def Event.tokens : List Event → List Token
  | [] => []
  | .scanned token :: events => token :: tokens events
  | .reread token :: events => token :: (tokens events).tail
  | _ :: events => tokens events

/-- The tokens that have been consumed, in their order: all that were scanned but the lookahead. -/
def State.consumed (state : State) : List Token :=
  (Event.tokens state.events).tail.reverse

/-- The surroundings of the construct at hand. -/
def State.scope (state : State) : Scope :=
  ⟨state.context, state.labels, state.options⟩

/-- The part of a state that consuming tokens changes. -/
structure Point where
  cursor : Cursor
  lookahead : Token
  consumedEnd : Position
  /-- The tokens that have been scanned, the latest first. -/
  scanned : List Token

/-- The part of a state that consuming tokens changes. -/
def State.point (state : State) : Point :=
  ⟨state.cursor, state.lookahead, state.consumedEnd, Event.tokens state.events⟩

namespace Point

/-- The token of lookahead, which is not the end of the text, is consumed. -/
def Advances (before after : Point) : Prop :=
  before.lookahead.lexeme ≠ .endOfFile ∧
    ∃ next cursor, Scan.token before.cursor = .ok next cursor ∧
      after = ⟨cursor, next, before.lookahead.span.stop, next :: before.scanned⟩

/-- The slash in the lookahead is read again. -/
def Rereads (before after : Point) : Prop :=
  ∃ front token cursor, Scan.slash? before.lookahead.lexeme = some front ∧
    Scan.regularExpression before.lookahead front before.cursor = .ok token cursor ∧
    after = ⟨cursor, token, before.consumedEnd, token :: before.scanned.tail⟩

/-- Some tokens are consumed. -/
inductive Passes : Point → List Token → Point → Prop where
  | none {point : Point} : Passes point [] point
  | advance {before after last : Point} {tokens : List Token} :
      before.Advances after → Passes after tokens last →
      Passes before (before.lookahead :: tokens) last
  | reread {before between after last : Point} {tokens : List Token} :
      before.Rereads between → between.Advances after → Passes after tokens last →
      Passes before (between.lookahead :: tokens) last

theorem Passes.append {first second third : Point} {front back : List Token}
    (left : first.Passes front second) (right : second.Passes back third) :
    first.Passes (front ++ back) third := by
  induction left with
  | none => exact right
  | advance step _ ih => exact .advance step (ih right)
  | reread again step _ ih => exact .reread again step (ih right)

/-- A regular expression takes the place of the slash that it was read from. -/
theorem Rereads.token {before after : Point} (rereads : before.Rereads after) :
    after.lookahead.Rereads before.lookahead := by
  obtain ⟨front, token, cursor, slash, scanned, rfl⟩ := rereads
  simp only [Scan.regularExpression, RegularExpression.read] at scanned
  split at scanned
  · rename_i read
    split at read
    · contradiction
    · split at read <;> cases read
      cases scanned
      exact ⟨⟨_, _, rfl⟩, by simp [slash], rfl, rfl⟩
  · contradiction

/-- A slash can be read again before what consumes the regular expression. -/
theorem Passes.of_rereads {before between after : Point} {tokens : List Token}
    (again : before.Rereads between) (passes : between.Passes tokens after)
    (nonempty : tokens ≠ []) : before.Passes tokens after := by
  cases passes with
  | none => contradiction
  | advance step rest => exact .reread again step rest
  | reread twice =>
    obtain ⟨⟨pattern, flags, expression⟩, _⟩ := again.token
    obtain ⟨_, slash, _⟩ := twice.token
    simp [expression, Scan.slash?] at slash

/-- The lookahead opens the tokens that are consumed next. -/
theorem Passes.opens {before after : Point} {tokens : List Token}
    (passes : before.Passes tokens after) : before.lookahead.Opens tokens after.lookahead := by
  cases passes with
  | none => exact rfl
  | advance => exact .inl rfl
  | reread again => exact .inr again.token

theorem Passes.consumedEnd {before after : Point} {tokens : List Token}
    (passes : before.Passes tokens after) :
    after.consumedEnd = (tokens.getLast?.map (·.span.stop)).getD before.consumedEnd := by
  induction passes with
  | none => rfl
  | @advance before middle last tokens step _ ih =>
    obtain ⟨_, next, cursor, _, rfl⟩ := step
    rw [ih]
    cases tokens <;> simp [List.getLast?_cons]
  | @reread before between middle last tokens _ step _ ih =>
    obtain ⟨_, next, cursor, _, rfl⟩ := step
    rw [ih]
    cases tokens <;> simp [List.getLast?_cons]

/-- The tokens that are consumed come after those that were consumed before. -/
theorem Passes.scanned {before after : Point} {tokens earlier : List Token}
    (passes : before.Passes tokens after) (latest : before.scanned = before.lookahead :: earlier) :
    after.scanned = after.lookahead :: (tokens.reverse ++ earlier) := by
  induction passes generalizing earlier with
  | none => exact latest
  | advance step _ ih =>
    obtain ⟨_, next, cursor, _, rfl⟩ := step
    rw [ih rfl, latest, List.reverse_cons, List.append_assoc, List.singleton_append]
  | reread again step _ ih =>
    obtain ⟨front, token, cursor, _, _, rfl⟩ := again
    obtain ⟨_, next, cursor, _, rfl⟩ := step
    rw [ih rfl, latest, List.reverse_cons, List.append_assoc, List.singleton_append, List.tail_cons]

/-- What is known of all tokens that can be scanned is known of those that are consumed. -/
theorem Passes.forall_mem {property : Token → Prop}
    (ofToken : ∀ {cursor next after}, Scan.token cursor = .ok next after → property next)
    (ofRegularExpression : ∀ {slash front cursor next after},
      Scan.regularExpression slash front cursor = .ok next after → property next)
    {before after : Point} {tokens : List Token} (passes : before.Passes tokens after)
    (first : property before.lookahead) : ∀ token ∈ tokens, property token := by
  induction passes with
  | none => exact fun _ member => absurd member List.not_mem_nil
  | advance step _ ih =>
    obtain ⟨_, next, cursor, scanned, rfl⟩ := step
    exact List.forall_mem_cons.mpr ⟨first, ih (ofToken scanned)⟩
  | reread again step _ ih =>
    obtain ⟨front, token, cursor, _, reread, rfl⟩ := again
    obtain ⟨_, next, cursor, scanned, rfl⟩ := step
    exact List.forall_mem_cons.mpr ⟨ofRegularExpression reread, ih (ofToken scanned)⟩

end Point

/-- Between two states with the same surroundings some tokens are consumed. -/
structure State.Consumes (before : State) (tokens : List Token) (after : State) : Prop where
  scope : after.scope = before.scope
  passes : before.point.Passes tokens after.point

namespace State.Consumes

variable {first second third : State} {front back tokens : List Token}

theorem refl (state : State) : state.Consumes [] state :=
  ⟨rfl, .none⟩

theorem trans (left : first.Consumes front second) (right : second.Consumes back third) :
    first.Consumes (front ++ back) third :=
  ⟨right.scope.trans left.scope, left.passes.append right.passes⟩

theorem opens (consumes : first.Consumes tokens second) :
    first.lookahead.Opens tokens second.lookahead :=
  consumes.passes.opens

theorem context (consumes : first.Consumes tokens second) : second.context = first.context :=
  congrArg Scope.context consumes.scope

theorem labels (consumes : first.Consumes tokens second) : second.labels = first.labels :=
  congrArg Scope.labels consumes.scope

theorem options (consumes : first.Consumes tokens second) : second.options = first.options :=
  congrArg Scope.options consumes.scope

/-- A node that begins at the lookahead and ends with the last consumed token covers the tokens that
were consumed in between. -/
theorem span (consumes : first.Consumes tokens second) (nonempty : tokens ≠ []) :
    (⟨first.lookahead.span.start, second.consumedEnd⟩ : Span) = Token.cover tokens := by
  have last := consumes.passes.consumedEnd
  have opening := consumes.opens
  cases tokens with
  | nil => contradiction
  | cons token tokens =>
    have stop : second.consumedEnd = (Token.cover (token :: tokens)).stop := by
      simpa [Token.cover, State.point, List.getLast?_cons] using last
    rw [stop, ← opening.start]
    rfl

end State.Consumes

end EcmaScript
