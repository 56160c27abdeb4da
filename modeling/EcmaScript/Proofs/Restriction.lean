import EcmaScript.Proofs.Descent
import EcmaScript.Proofs.LegacyEscape
import EcmaScript.Proofs.Outcome

/-!
# Two parses of one text

A restricted parse refuses some nodes that a lenient one accepts: what strict code may not contain,
or `return` outside functions. The two stand in states that are twins, and an action tightens when
the restricted parse accepts just those of its results that have no refused node. Whether a result
has one may come out only when more actions have run, so what was found out before an action is
carried along as a condition that every accepted result of it must imply.
-/

namespace EcmaScript

/-- Strict code may contain the node, whatever is inside it. -/
def Node.isStrictlyAllowed : Node → Bool
  | .statement (.withObject ..) => false
  | .expression (.unary .delete argument _) => argument.name?.isNone
  | .expression (.assignment _ target _ _) => !target.name?.any Parse.isEvalOrArguments
  | .expression (.update _ _ target _) => !target.name?.any Parse.isEvalOrArguments
  | .statement (.forInLoop (.expression target) _ _ _) =>
    !target.name?.any Parse.isEvalOrArguments
  | .expression (.identifier item) => !isStrictReservedWord item.name
  | .binding item => !isStrictReservedWord item.name && !Parse.isEvalOrArguments item.name
  | .label item => !isStrictReservedWord item.name
  | .expression (.literal (.string _) raw _) => !hasLegacyEscape raw.toList
  | .key (.literal (.string _) raw _) => !hasLegacyEscape raw.toList
  | _ => true

/-- The node is a jump out of a function. -/
def Node.isReturn : Node → Bool
  | .statement (.returnValue ..) => true
  | _ => false

/-- What a restricted parse refuses. -/
structure Restriction where
  /-- Whatever strict code may not contain. -/
  strict : Bool := false
  /-- Jumps out of functions where there is none. -/
  noReturn : Bool := false

namespace Restriction

variable {restriction : Restriction} {inFunction : Bool}

/-- A node is not refused, inside a function or outside of all. -/
def permits (restriction : Restriction) (inFunction : Bool) (node : Node) : Bool :=
  (!restriction.strict || node.isStrictlyAllowed) &&
    (!restriction.noReturn || inFunction || !node.isReturn)

/-- No node in the tree of a root is refused. -/
def Accepts (restriction : Restriction) (inFunction : Bool) (root : Node) : Prop :=
  root.Everywhere fun path node =>
    restriction.permits (inFunction || Step.inFunction path) node = true

theorem accepts_iff {root : Node} :
    restriction.Accepts inFunction root ↔
      restriction.permits inFunction root = true ∧ ∀ child ∈ root.children,
        restriction.Accepts (inFunction || (⟨root, child⟩ : Step).entersFunction) child := by
  have below : ∀ child path,
      (inFunction || Step.inFunction (path ++ [⟨root, child⟩])) =
        (inFunction || (⟨root, child⟩ : Step).entersFunction || Step.inFunction path) := by
    intro child path
    rw [Step.inFunction, List.any_append, List.any_cons, List.any_nil, Bool.or_false, Bool.or_assoc,
      Bool.or_comm (path.any _)]
    rfl
  have here : Step.inFunction [] = false := rfl
  unfold Accepts
  rw [Node.everywhere_iff]
  simp only [below, here, Bool.or_false]

/-- A node that is never refused is accepted when its children are accepted. -/
theorem accepts_plain {node : Node} (allowed : node.isStrictlyAllowed = true)
    (other : node.isReturn = false) :
    restriction.Accepts inFunction node ↔ ∀ child ∈ node.children,
      restriction.Accepts (inFunction || (⟨node, child⟩ : Step).entersFunction) child := by
  rw [accepts_iff, permits, allowed, other]
  simp

end Restriction

/-- A lenient parse is inside a function or outside of all, and its lookahead is faithful. -/
structure State.Steady (inFunction : Bool) (state : State) : Prop where
  inside : state.context.inFunction = inFunction
  faithful : state.lookahead.Faithful

/-- A state of a restricted parse is that of a lenient one but for what is restricted. -/
structure State.Twin (restriction : Restriction) (inFunction : Bool) (lenient strict : State) :
    Prop where
  steady : lenient.Steady inFunction
  cursor : strict.cursor = lenient.cursor
  lookahead : strict.lookahead = lenient.lookahead
  consumedEnd : strict.consumedEnd = lenient.consumedEnd
  labels : strict.labels = lenient.labels
  context : strict.context =
    { lenient.context with strict := restriction.strict || lenient.context.strict }
  returns : strict.options.allowReturnOutsideFunction =
    (lenient.options.allowReturnOutsideFunction && !restriction.noReturn)
  hashbang : strict.options.allowHashbang = lenient.options.allowHashbang

namespace Parse

variable {α β : Type}

theorem bind_eq_ok {action : Parse α} {rest : α → Parse β} {state after : State} {result : β} :
    (action >>= rest) state = .ok result after ↔
      ∃ value between, action state = .ok value between ∧
        rest value between = .ok result after := by
  constructor
  · intro run
    change EStateM.bind action rest state = _ at run
    unfold EStateM.bind at run
    split at run
    · rename_i value between first
      exact ⟨value, between, first, run⟩
    · contradiction
  · rintro ⟨value, between, first, second⟩
    change EStateM.bind action rest state = _
    rw [EStateM.bind, first]
    exact second

/-- An action that runs only where some token is that of lookahead. -/
def upon (token : Token) (action : Parse α) : Parse α := fun state =>
  if state.lookahead = token then action state else exhausted state

theorem lookahead_upon {rest : Token → Parse β} :
    (lookahead >>= rest) = lookahead >>= fun token => upon token (rest token) :=
  funext fun _ => (if_pos rfl).symm

theorem upon_lookahead {token : Token} {rest : Token → Parse β} :
    upon token (lookahead >>= rest) = upon token (rest token) := by
  funext state
  unfold upon
  split
  · rename_i here
    exact congrArg (rest · state) here
  · rfl

theorem upon_bind {token : Token} {action : Parse α} {rest : α → Parse β} :
    upon token (action >>= rest) = upon token action >>= rest := by
  funext state
  change upon token (EStateM.bind action rest) state = EStateM.bind (upon token action) rest state
  by_cases here : state.lookahead = token
  · simp only [upon, EStateM.bind, if_pos here]
  · simp only [upon, EStateM.bind, if_neg here]
    rfl

/-- Of the results of a lenient action, a restricted one gives just those that are accepted. These
imply what was known before. -/
structure Tightens (restriction : Restriction) (inFunction : Bool) (before : Prop)
    (action : Parse α) (accepts : α → Prop) : Prop where
  steady : ∀ {state value after}, state.Steady inFunction → action state = .ok value after →
    after.Steady inFunction ∧ (accepts value → before)
  forward : ∀ {lenient strict value after}, lenient.Twin restriction inFunction strict → before →
    action strict = .ok value after →
    accepts value ∧ ∃ other, action lenient = .ok value other ∧
      other.Twin restriction inFunction after
  backward : ∀ {lenient strict value after}, lenient.Twin restriction inFunction strict →
    action lenient = .ok value after → accepts value →
    ∃ other, action strict = .ok value other ∧ after.Twin restriction inFunction other

namespace Tightens

variable {restriction : Restriction} {inFunction : Bool} {before : Prop} {accepts : α → Prop}
  {acceptsRest : β → Prop}

theorem bind {action : Parse α} {rest : α → Parse β}
    (first : Tightens restriction inFunction before action accepts)
    (second : ∀ value, Tightens restriction inFunction (accepts value) (rest value) acceptsRest) :
    Tightens restriction inFunction before (action >>= rest) acceptsRest := by
  constructor
  · intro state result after steady run
    obtain ⟨value, between, run, runRest⟩ := bind_eq_ok.mp run
    obtain ⟨steady, known⟩ := first.steady steady run
    obtain ⟨steady, implied⟩ := (second value).steady steady runRest
    exact ⟨steady, fun accepted => known (implied accepted)⟩
  · intro lenient strict result after twin holds run
    obtain ⟨value, between, run, runRest⟩ := bind_eq_ok.mp run
    obtain ⟨accepted, middle, lenientRun, twin⟩ := first.forward twin holds run
    obtain ⟨acceptedRest, other, lenientRest, twin⟩ := (second value).forward twin accepted runRest
    exact ⟨acceptedRest, other, bind_eq_ok.mpr ⟨value, middle, lenientRun, lenientRest⟩, twin⟩
  · intro lenient strict result after twin run accepted
    obtain ⟨value, between, run, runRest⟩ := bind_eq_ok.mp run
    obtain ⟨steady, _⟩ := first.steady twin.steady run
    obtain ⟨_, implied⟩ := (second value).steady steady runRest
    obtain ⟨middle, strictRun, twin⟩ := first.backward twin run (implied accepted)
    obtain ⟨other, strictRest, twin⟩ := (second value).backward twin runRest accepted
    exact ⟨other, bind_eq_ok.mpr ⟨value, middle, strictRun, strictRest⟩, twin⟩

/-- What was known before goes along with an action that does not need it. -/
theorem frame {needed : Prop} {action : Parse α}
    (tightens : Tightens restriction inFunction needed action accepts) (known : Prop) :
    Tightens restriction inFunction (known ∧ needed) action fun value => known ∧ accepts value := by
  constructor
  · intro state value after steady run
    obtain ⟨steady, implied⟩ := tightens.steady steady run
    exact ⟨steady, fun accepted => ⟨accepted.1, implied accepted.2⟩⟩
  · intro lenient strict value after twin holds run
    obtain ⟨accepted, other⟩ := tightens.forward twin holds.2 run
    exact ⟨⟨holds.1, accepted⟩, other⟩
  · intro lenient strict value after twin run accepted
    exact tightens.backward twin run accepted.2

/-- The same action with conditions that say the same. -/
theorem congr {action : Parse α} {other : α → Prop} {known : Prop}
    (tightens : Tightens restriction inFunction before action accepts) (same : known ↔ before)
    (sameAfter : ∀ value, other value ↔ accepts value) :
    Tightens restriction inFunction known action other := by
  have equal : other = accepts := funext fun value => propext (sameAfter value)
  rw [equal, propext same]
  exact tightens

/-- An action of its own, and then the rest with what has been found out. -/
theorem step {action : Parse α} {rest : α → Parse β}
    (first : Tightens restriction inFunction True action accepts)
    (second : ∀ value,
      Tightens restriction inFunction (before ∧ accepts value) (rest value) acceptsRest) :
    Tightens restriction inFunction before (action >>= rest) acceptsRest :=
  ((first.frame before).congr (by simp) fun _ => Iff.rfl).bind second

theorem pure {value : α} (same : before ↔ accepts value) :
    Tightens restriction inFunction before (Pure.pure value) accepts := by
  constructor
  · rintro state value after steady ⟨⟩
    exact ⟨steady, same.mpr⟩
  · rintro lenient strict value after twin holds ⟨⟩
    exact ⟨same.mp holds, lenient, rfl, twin⟩
  · rintro lenient strict value after twin ⟨⟩ _
    exact ⟨strict, rfl, twin⟩

/-- An action without results. -/
theorem fails {action : Parse α} (never : ∀ state value after, action state ≠ .ok value after) :
    Tightens restriction inFunction before action accepts := by
  constructor
  · intro state value after _ run
    exact absurd run (never state value after)
  · intro lenient strict value after _ _ run
    exact absurd run (never strict value after)
  · intro lenient strict value after _ run
    exact absurd run (never lenient value after)

theorem fail {cause : Cause} {position : Position} :
    Tightens restriction inFunction before (Parse.fail cause position : Parse α) accepts :=
  .fails fun _ _ _ run => by cases run

theorem fail_bind {cause : Cause} {position : Position} {rest : α → Parse β} :
    Tightens restriction inFunction before ((Parse.fail cause position : Parse α) >>= rest)
      acceptsRest :=
  .fails fun _ _ _ run => by cases run

theorem unexpected : Tightens restriction inFunction before (Parse.unexpected : Parse α) accepts :=
  .fails fun _ _ _ run => by cases run

theorem exhausted : Tightens restriction inFunction before (Parse.exhausted : Parse α) accepts :=
  .fails fun _ _ _ run => by cases run

/-- An action that depends on what twins have in common. -/
theorem get {rest : State → Parse β}
    (same : ∀ {lenient strict}, lenient.Twin restriction inFunction strict →
      rest strict = rest lenient)
    (each : ∀ state, state.Steady inFunction →
      Tightens restriction inFunction before (rest state) acceptsRest) :
    Tightens restriction inFunction before ((MonadState.get : Parse State) >>= rest)
      acceptsRest := by
  constructor
  · intro state value after steady run
    exact (each state steady).steady steady run
  · intro lenient strict value after twin holds run
    change rest strict strict = _ at run
    rw [same twin] at run
    exact (each lenient twin.steady).forward twin holds run
  · intro lenient strict value after twin run accepted
    obtain ⟨other, run⟩ := (each lenient twin.steady).backward twin run accepted
    rw [← same twin] at run
    exact ⟨other, run⟩

theorem lookahead {rest : Token → Parse β}
    (each : ∀ token : Token, token.Faithful →
      Tightens restriction inFunction before (rest token) acceptsRest) :
    Tightens restriction inFunction before (Parse.lookahead >>= rest) acceptsRest :=
  .get (fun twin => congrArg rest twin.lookahead) fun state steady =>
    each state.lookahead steady.faithful

theorem kind {rest : Kind → Parse β}
    (each : ∀ kind, Tightens restriction inFunction before (rest kind) acceptsRest) :
    Tightens restriction inFunction before (Parse.kind >>= rest) acceptsRest :=
  .lookahead fun token _ => each token.kind

theorem nodeStart {rest : Position → Parse β}
    (each : ∀ start, Tightens restriction inFunction before (rest start) acceptsRest) :
    Tightens restriction inFunction before (Parse.nodeStart >>= rest) acceptsRest :=
  .lookahead fun token _ => each token.span.start

theorem sees {expected : Kind} {rest : Bool → Parse β}
    (each : ∀ found, Tightens restriction inFunction before (rest found) acceptsRest) :
    Tightens restriction inFunction before (Parse.sees expected >>= rest) acceptsRest :=
  .lookahead fun token _ => each (token.kind == expected)

theorem spanFrom {start : Position} {rest : Span → Parse β}
    (each : ∀ span, Tightens restriction inFunction before (rest span) acceptsRest) :
    Tightens restriction inFunction before (Parse.spanFrom start >>= rest) acceptsRest :=
  .get (fun twin => congrArg (fun stop => rest ⟨start, stop⟩) twin.consumedEnd) fun state _ =>
    each ⟨start, state.consumedEnd⟩

/-- A check that only the restricted parse may fail, and fails when a condition does not hold. -/
theorem guard {passed : Parse β} {condition : Prop} (rest : State → Parse β)
    (refuses : State → Bool)
    (refused : ∀ state, refuses state = true → ∀ now value after, rest state now ≠ .ok value after)
    (passes : ∀ state, refuses state = false → rest state = passed)
    (stricter : ∀ {lenient strict}, lenient.Twin restriction inFunction strict →
      (refuses strict = false ↔ refuses lenient = false ∧ condition))
    (next : Tightens restriction inFunction (before ∧ condition) passed acceptsRest) :
    Tightens restriction inFunction before ((MonadState.get : Parse State) >>= rest)
      acceptsRest := by
  have passing : ∀ {state value after},
      ((MonadState.get : Parse State) >>= rest) state = .ok value after →
        refuses state = false ∧ passed state = .ok value after := by
    intro state value after run
    change rest state state = _ at run
    cases found : refuses state with
    | true => exact absurd run (refused state found state value after)
    | false =>
      rw [passes state found] at run
      exact ⟨rfl, run⟩
  constructor
  · intro state value after steady run
    obtain ⟨_, run⟩ := passing run
    obtain ⟨steady, implied⟩ := next.steady steady run
    exact ⟨steady, fun accepted => (implied accepted).1⟩
  · intro lenient strict value after twin holds run
    obtain ⟨found, run⟩ := passing run
    obtain ⟨foundLenient, satisfied⟩ := (stricter twin).mp found
    obtain ⟨accepted, other, run, twin⟩ := next.forward twin ⟨holds, satisfied⟩ run
    rw [← passes lenient foundLenient] at run
    exact ⟨accepted, other, run, twin⟩
  · intro lenient strict value after twin run accepted
    obtain ⟨found, run⟩ := passing run
    obtain ⟨_, implied⟩ := next.steady twin.steady run
    have foundStrict := (stricter twin).mpr ⟨found, (implied accepted).2⟩
    obtain ⟨other, run, twin⟩ := next.backward twin run accepted
    rw [← passes strict foundStrict] at run
    exact ⟨other, run, twin⟩

/-- A check of strict code. -/
theorem isStrict {rest : Bool → Parse β} {passed : Parse β} {bad : Bool}
    (refused : bad = true → ∀ now value after, rest true now ≠ .ok value after)
    (passes : ∀ strict, (strict && bad) = false → rest strict = passed)
    (next : Tightens restriction inFunction
      (before ∧ (restriction.strict = true → bad = false)) passed acceptsRest) :
    Tightens restriction inFunction before (Parse.isStrict >>= rest) acceptsRest := by
  refine .guard (fun state => rest state.context.strict)
    (fun state => state.context.strict && bad) ?_ ?_ ?_ next
  · intro state found
    obtain ⟨strict, isBad⟩ := Bool.and_eq_true _ _ |>.mp found
    rw [strict]
    exact refused isBad
  · intro state found
    exact passes state.context.strict found
  · intro lenient strict twin
    rw [twin.context]
    cases restriction.strict <;> cases lenient.context.strict <;> cases bad <;> simp

/-- A jump out of a function, where there is none, ends a parse that is not allowed to have it. -/
theorem mayReturn {refused passed : Parse β}
    (never : ∀ now value after, refused now ≠ .ok value after)
    (next : Tightens restriction inFunction
      (before ∧ (restriction.noReturn = true → inFunction = true)) passed acceptsRest) :
    Tightens restriction inFunction before
      ((MonadState.get : Parse State) >>= fun state =>
        if (state.context.inFunction || state.options.allowReturnOutsideFunction) = true then passed
        else refused)
      acceptsRest := by
  refine .guard _
    (fun state => !(state.context.inFunction || state.options.allowReturnOutsideFunction))
    ?_ ?_ ?_ next
  · intro state found now value after
    rw [if_neg (by simpa using found)]
    exact never now value after
  · intro state found
    rw [if_pos (by rwa [Bool.not_eq_false'] at found)]
  · intro lenient strict twin
    rw [twin.context, twin.returns, twin.steady.inside]
    cases inFunction <;> cases lenient.options.allowReturnOutsideFunction <;>
      cases restriction.noReturn <;> simp

/-- A check of strict code that ends the parse. -/
theorem check {bad : Bool} {refused passed : Parse β}
    (never : ∀ now value after, refused now ≠ .ok value after)
    (next : Tightens restriction inFunction
      (before ∧ (restriction.strict = true → bad = false)) passed acceptsRest) :
    Tightens restriction inFunction before
      (Parse.isStrict >>= fun strict => if (strict && bad) = true then refused else passed)
      acceptsRest := by
  refine .isStrict ?_ ?_ next
  · rintro rfl now value after run
    exact never now value after run
  · intro strict fine
    rw [fine]
    rfl

/-- What strict code may not have at all. -/
theorem notStrict {refused passed : Parse β}
    (never : ∀ now value after, refused now ≠ .ok value after)
    (next : Tightens restriction inFunction (before ∧ restriction.strict = false) passed
      acceptsRest) :
    Tightens restriction inFunction before
      (Parse.isStrict >>= fun strict => if strict = true then refused else passed)
      acceptsRest := by
  have same : before ∧ (restriction.strict = true → true = false) ↔
      before ∧ restriction.strict = false := by simp
  refine .isStrict ?_ ?_ (next.congr same fun _ => Iff.rfl)
  · intro _ now value after run
    exact never now value after run
  · intro strict fine
    rw [Bool.and_true] at fine
    rw [fine]
    rfl

/-- A node that may be refused is accepted when it is not and its children are accepted. -/
theorem checked {inside : Bool} {wrap : α → Node} {value : α}
    (same : before ↔ restriction.permits inside (wrap value) = true ∧
      ∀ child ∈ (wrap value).children,
        restriction.Accepts (inside || (⟨wrap value, child⟩ : Step).entersFunction) child) :
    Tightens restriction inFunction before (Pure.pure value) fun value =>
      restriction.Accepts inside (wrap value) :=
  .pure (same.trans Restriction.accepts_iff.symm)

/-- A node that is never refused is accepted when its children are accepted. -/
theorem made {inside : Bool} {wrap : α → Node} {value : α}
    (allowed : (wrap value).isStrictlyAllowed = true) (other : (wrap value).isReturn = false)
    (same : before ↔ ∀ child ∈ (wrap value).children,
      restriction.Accepts (inside || (⟨wrap value, child⟩ : Step).entersFunction) child) :
    Tightens restriction inFunction before (Pure.pure value) fun value =>
      restriction.Accepts inside (wrap value) :=
  .pure (same.trans (Restriction.accepts_plain allowed other).symm)

/-- What an action does where its token of lookahead is known. -/
theorem opening {rest : Token → Parse β}
    (each : ∀ token : Token, token.Faithful →
      Tightens restriction inFunction before (upon token (rest token)) acceptsRest) :
    Tightens restriction inFunction before (Parse.lookahead >>= rest) acceptsRest := by
  rw [lookahead_upon]
  exact .lookahead each

theorem upon {token : Token} {action : Parse α}
    (tightens : Tightens restriction inFunction before action accepts) :
    Tightens restriction inFunction before (Parse.upon token action) accepts := by
  have runs : ∀ {state value after}, Parse.upon token action state = .ok value after →
      state.lookahead = token ∧ action state = .ok value after := by
    intro state value after run
    unfold Parse.upon at run
    split at run
    · rename_i here
      exact ⟨here, run⟩
    · cases run
  constructor
  · intro state value after steady run
    exact tightens.steady steady (runs run).2
  · intro lenient strict value after twin holds run
    obtain ⟨here, run⟩ := runs run
    rw [twin.lookahead] at here
    obtain ⟨accepted, other, run, twinAfter⟩ := tightens.forward twin holds run
    exact ⟨accepted, other, (if_pos here).trans run, twinAfter⟩
  · intro lenient strict value after twin run accepted
    obtain ⟨here, run⟩ := runs run
    rw [← twin.lookahead] at here
    obtain ⟨other, run, twinAfter⟩ := tightens.backward twin run accepted
    exact ⟨other, (if_pos here).trans run, twinAfter⟩

/-- An action that finds nothing out. -/
theorem skip {action : Parse Unit} {rest : Unit → Parse β}
    (first : Tightens restriction inFunction True action fun _ => True)
    (second : Tightens restriction inFunction before (rest ()) acceptsRest) :
    Tightens restriction inFunction before (action >>= rest) acceptsRest :=
  first.step fun _ => second.congr (by simp) fun _ => Iff.rfl

theorem map {γ : Type} {action : Parse α} {function : α → γ} {acceptsImage : γ → Prop}
    (tightens : Tightens restriction inFunction before action accepts)
    (same : ∀ value, accepts value ↔ acceptsImage (function value)) :
    Tightens restriction inFunction before (function <$> action) acceptsImage := by
  rw [map_eq_pure_bind]
  exact tightens.bind fun value => .pure (same value)

end Tightens

section Tokens

theorem scan_eq_ok {action : Scan Token} {state after : State} {token : Token} :
    scan action state = .ok token after ↔
      ∃ cursor, action state.cursor = .ok token cursor ∧ { state with cursor } = after := by
  unfold scan
  constructor
  · intro run
    split at run
    · rename_i found
      cases run
      exact ⟨_, found, rfl⟩
    · contradiction
  · rintro ⟨cursor, found, rfl⟩
    rw [found]

theorem within_eq_ok {enter : State → State} {leave : State → State → State}
    {action : Parse α} {state after : State} {value : α} :
    within enter leave action state = .ok value after ↔
      ∃ between, action (enter state) = .ok value between ∧ leave state between = after := by
  unfold within
  constructor
  · intro run
    split at run
    · rename_i found
      cases run
      exact ⟨_, found, rfl⟩
    · contradiction
  · rintro ⟨between, found, rfl⟩
    rw [found]

theorem fetch_eq_ok {state after : State} {token : Token} :
    fetch state = .ok token after ↔
      ∃ cursor, Scan.token state.cursor = .ok token cursor ∧
        { state with cursor, events := .scanned token :: state.events } = after := by
  unfold fetch
  constructor
  · intro run
    obtain ⟨token, between, scanned, rest⟩ := bind_eq_ok.mp run
    obtain ⟨cursor, found, rfl⟩ := scan_eq_ok.mp scanned
    cases rest
    exact ⟨cursor, found, rfl⟩
  · rintro ⟨cursor, found, rfl⟩
    exact bind_eq_ok.mpr ⟨token, _, scan_eq_ok.mpr ⟨cursor, found, rfl⟩, rfl⟩

theorem consume_eq_ok {state after : State} :
    consume state = .ok () after ↔
      ∃ token cursor, Scan.token state.cursor = .ok token cursor ∧
        { state with
          cursor, lookahead := token, consumedEnd := state.lookahead.span.stop
          events := .scanned token :: state.events } = after := by
  unfold consume
  constructor
  · intro run
    obtain ⟨token, between, fetched, rest⟩ := bind_eq_ok.mp run
    obtain ⟨cursor, found, rfl⟩ := fetch_eq_ok.mp fetched
    cases rest
    exact ⟨token, cursor, found, rfl⟩
  · rintro ⟨token, cursor, found, rfl⟩
    exact bind_eq_ok.mpr ⟨token, _, fetch_eq_ok.mpr ⟨cursor, found, rfl⟩, rfl⟩

theorem reread_eq_ok {front : List Char} {state after : State} :
    reread front state = .ok () after ↔
      ∃ token cursor,
        Scan.regularExpression state.lookahead front state.cursor = .ok token cursor ∧
        { state with cursor, lookahead := token, events := .reread token :: state.events } =
          after := by
  unfold reread
  constructor
  · intro run
    obtain ⟨slash, _, seen, run⟩ := bind_eq_ok.mp run
    cases seen
    obtain ⟨token, between, scanned, rest⟩ := bind_eq_ok.mp run
    obtain ⟨cursor, found, rfl⟩ := scan_eq_ok.mp scanned
    cases rest
    exact ⟨token, cursor, found, rfl⟩
  · rintro ⟨token, cursor, found, rfl⟩
    refine bind_eq_ok.mpr ⟨state.lookahead, state, rfl, ?_⟩
    exact bind_eq_ok.mpr ⟨token, _, scan_eq_ok.mpr ⟨cursor, found, rfl⟩, rfl⟩

end Tokens

namespace Tightens

variable {restriction : Restriction} {inFunction : Bool} {before : Prop} {accepts : α → Prop}
  {acceptsRest : β → Prop}

/-- The token of lookahead is replaced by one that is read from the cursor. -/
theorem takes {action : Parse Unit} (read : Token → Scan Token)
    (stop : Token → Position → Position) (event : Token → Event)
    (result : ∀ {state after}, action state = .ok () after ↔
      ∃ token cursor, read state.lookahead state.cursor = .ok token cursor ∧
        { state with
          cursor, lookahead := token, consumedEnd := stop state.lookahead state.consumedEnd
          events := event token :: state.events } = after)
    (faithful : ∀ {former token : Token} {cursor after : Cursor},
      read former cursor = .ok token after → token.Faithful) :
    Tightens restriction inFunction True action fun _ => True := by
  constructor
  · rintro state ⟨⟩ after steady run
    obtain ⟨token, cursor, scanned, rfl⟩ := result.mp run
    exact ⟨⟨steady.inside, faithful scanned⟩, id⟩
  · rintro lenient strict ⟨⟩ after twin _ run
    obtain ⟨token, cursor, scanned, rfl⟩ := result.mp run
    rw [twin.cursor, twin.lookahead] at scanned
    refine ⟨trivial, _, result.mpr ⟨token, cursor, scanned, rfl⟩, ?_⟩
    rw [twin.lookahead, twin.consumedEnd]
    exact { twin with
      steady := ⟨twin.steady.inside, faithful scanned⟩
      cursor := rfl, lookahead := rfl, consumedEnd := rfl }
  · rintro lenient strict ⟨⟩ after twin run _
    obtain ⟨token, cursor, scanned, rfl⟩ := result.mp run
    have same := scanned
    rw [← twin.cursor, ← twin.lookahead] at same
    refine ⟨_, result.mpr ⟨token, cursor, same, rfl⟩, ?_⟩
    rw [twin.lookahead, twin.consumedEnd]
    exact { twin with
      steady := ⟨twin.steady.inside, faithful scanned⟩
      cursor := rfl, lookahead := rfl, consumedEnd := rfl }

theorem consume : Tightens restriction inFunction True Parse.consume fun _ => True :=
  .takes (fun _ => Scan.token) (fun token _ => token.span.stop) .scanned consume_eq_ok
    Scan.faithful_of_token

theorem reread {front : List Char} :
    Tightens restriction inFunction True (Parse.reread front) fun _ => True :=
  .takes (Scan.regularExpression · front) (fun _ stop => stop) .reread reread_eq_ok
    Scan.faithful_of_regularExpression

/-- Both parses go on in strict code. -/
theorem enableStrict : Tightens restriction inFunction True Parse.enableStrict fun _ => True := by
  have twins : ∀ {lenient strict : State} {events others : List Event},
      lenient.Twin restriction inFunction strict →
        State.Twin restriction inFunction
          { lenient with context := { lenient.context with strict := true }, events }
          { strict with context := { strict.context with strict := true }, events := others } := by
    intro lenient strict events others twin
    refine { twin with steady := ⟨twin.steady.inside, twin.steady.faithful⟩, context := ?_ }
    rw [twin.context, Bool.or_true]
  constructor
  · rintro state ⟨⟩ after steady run
    obtain ⟨events, _, succeeds⟩ := enableStrict_ok state
    rw [succeeds] at run
    cases run
    exact ⟨⟨steady.inside, steady.faithful⟩, id⟩
  · rintro lenient strict ⟨⟩ after twin _ run
    obtain ⟨events, _, succeeds⟩ := enableStrict_ok strict
    obtain ⟨others, _, succeedsToo⟩ := enableStrict_ok lenient
    rw [succeeds] at run
    cases run
    exact ⟨trivial, _, succeedsToo, twins twin⟩
  · rintro lenient strict ⟨⟩ after twin run _
    obtain ⟨events, _, succeeds⟩ := enableStrict_ok lenient
    obtain ⟨others, _, succeedsToo⟩ := enableStrict_ok strict
    rw [succeeds] at run
    cases run
    exact ⟨_, succeedsToo, twins twin⟩

theorem require {expected : Kind} :
    Tightens restriction inFunction True (Parse.require expected) fun _ => True := by
  rw [Parse.require]
  apply Tightens.sees
  intro found
  split
  · exact .consume
  · exact .unexpected

theorem consumeIf {expected : Kind} {rest : Bool → Parse β}
    (each : ∀ found, Tightens restriction inFunction before (rest found) acceptsRest) :
    Tightens restriction inFunction before (Parse.consumeIf expected >>= rest) acceptsRest := by
  rw [Parse.consumeIf, bind_assoc]
  apply Tightens.sees
  intro found
  split
  · rw [bind_assoc]
    exact .skip .consume (each true)
  · exact each false

theorem semicolon : Tightens restriction inFunction True Parse.semicolon fun _ => True := by
  rw [Parse.semicolon]
  apply Tightens.consumeIf
  intro found
  split
  · exact .pure Iff.rfl
  · apply Tightens.lookahead
    intro token _
    split
    · exact .pure Iff.rfl
    · exact .unexpected

/-- An action in other surroundings, which are entered and left alike by twins. -/
theorem within {inside : Bool} {action : Parse α} {enter : State → State}
    {leave : State → State → State}
    (steady : ∀ {state : State}, state.Steady inFunction → (enter state).Steady inside)
    (twin : ∀ {lenient strict : State}, lenient.Twin restriction inFunction strict →
      (enter lenient).Twin restriction inside (enter strict))
    (steadyAfter : ∀ {state after : State}, state.Steady inFunction → after.Steady inside →
      (leave state after).Steady inFunction)
    (twinAfter : ∀ {lenient strict after other : State},
      lenient.Twin restriction inFunction strict → after.Twin restriction inside other →
        (leave lenient after).Twin restriction inFunction (leave strict other))
    (tightens : Tightens restriction inside before action accepts) :
    Tightens restriction inFunction before (Parse.within enter leave action) accepts := by
  constructor
  · intro state value after outer run
    obtain ⟨between, inner, rfl⟩ := within_eq_ok.mp run
    obtain ⟨steadyInner, implied⟩ := tightens.steady (steady outer) inner
    exact ⟨steadyAfter outer steadyInner, implied⟩
  · intro lenient strict value after outer holds run
    obtain ⟨between, inner, rfl⟩ := within_eq_ok.mp run
    obtain ⟨accepted, other, inner, twinInner⟩ := tightens.forward (twin outer) holds inner
    exact ⟨accepted, _, within_eq_ok.mpr ⟨other, inner, rfl⟩, twinAfter outer twinInner⟩
  · intro lenient strict value after outer run accepted
    obtain ⟨between, inner, rfl⟩ := within_eq_ok.mp run
    obtain ⟨other, inner, twinInner⟩ := tightens.backward (twin outer) inner accepted
    exact ⟨_, within_eq_ok.mpr ⟨other, inner, rfl⟩, twinAfter outer twinInner⟩

section Surroundings

variable {action : Parse α}

theorem inContext {inside : Bool} {change : Context → Context}
    (enters : ∀ context : Context, context.inFunction = inFunction →
      (change context).inFunction = inside)
    (alike : ∀ (context : Context) (strict : Bool),
      change { context with strict } = { change context with strict })
    (same : ∀ context : Context, (change context).strict = context.strict)
    (tightens : Tightens restriction inside before action accepts) :
    Tightens restriction inFunction before (Parse.inContext change action) accepts := by
  refine .within ?_ ?_ ?_ ?_ tightens
  · intro state steady
    exact ⟨enters _ steady.inside, steady.faithful⟩
  · intro lenient strict twin
    refine { twin with
      steady := ⟨enters _ twin.steady.inside, twin.steady.faithful⟩, context := ?_ }
    rw [twin.context, alike, same]
  · intro state after outer inner
    exact ⟨outer.inside, inner.faithful⟩
  · intro lenient strict after other outer inner
    exact { inner with
      steady := ⟨outer.steady.inside, inner.steady.faithful⟩, context := outer.context }

theorem withIn (tightens : Tightens restriction inFunction before action accepts) :
    Tightens restriction inFunction before (Parse.withIn action) accepts :=
  .inContext (fun _ => id) (fun _ _ => rfl) (fun _ => rfl) tightens

theorem withoutIn (tightens : Tightens restriction inFunction before action accepts) :
    Tightens restriction inFunction before (Parse.withoutIn action) accepts :=
  .inContext (fun _ => id) (fun _ _ => rfl) (fun _ => rfl) tightens

theorem inLoop (tightens : Tightens restriction inFunction before action accepts) :
    Tightens restriction inFunction before (Parse.inLoop action) accepts :=
  .inContext (fun _ => id) (fun _ _ => rfl) (fun _ => rfl) tightens

theorem inSwitch (tightens : Tightens restriction inFunction before action accepts) :
    Tightens restriction inFunction before (Parse.inSwitch action) accepts :=
  .inContext (fun _ => id) (fun _ _ => rfl) (fun _ => rfl) tightens

theorem withinFunction (tightens : Tightens restriction true before action accepts) :
    Tightens restriction inFunction before (Parse.inFunction action) accepts := by
  refine .within ?_ ?_ ?_ ?_ tightens
  · intro state steady
    exact ⟨rfl, steady.faithful⟩
  · intro lenient strict twin
    refine { twin with
      steady := ⟨rfl, twin.steady.faithful⟩, labels := rfl, context := ?_ }
    rw [twin.context]
    rfl
  · intro state after outer inner
    exact ⟨outer.inside, inner.faithful⟩
  · intro lenient strict after other outer inner
    exact { inner with
      steady := ⟨outer.steady.inside, inner.steady.faithful⟩
      labels := outer.labels, context := outer.context }

theorem withLabel {label : String}
    (tightens : Tightens restriction inFunction before action accepts) :
    Tightens restriction inFunction before (Parse.withLabel label action) accepts := by
  refine .within ?_ ?_ ?_ ?_ tightens
  · intro state steady
    exact ⟨steady.inside, steady.faithful⟩
  · intro lenient strict twin
    refine { twin with steady := ⟨twin.steady.inside, twin.steady.faithful⟩, labels := ?_ }
    rw [twin.labels]
  · intro state after _ inner
    exact ⟨inner.inside, inner.faithful⟩
  · intro lenient strict after other _ inner
    refine { inner with steady := ⟨inner.steady.inside, inner.steady.faithful⟩, labels := ?_ }
    rw [inner.labels]

end Surroundings

theorem itemsUntil {ends : Kind → Bool} {item : Parse α}
    (tightens : Tightens restriction inFunction True item accepts) (turns : Nat) :
    Tightens restriction inFunction True (Parse.itemsUntil ends item turns) fun items =>
      ∀ value ∈ items, accepts value := by
  induction turns with
  | zero => exact .exhausted
  | succ turns ih =>
    rw [Parse.itemsUntil]
    apply Tightens.kind
    intro kind
    split
    · exact .pure (by simp)
    · apply Tightens.step tightens
      intro first
      apply Tightens.step ih
      intro others
      exact .pure (by simp)

theorem separated {item : Parse α}
    (tightens : Tightens restriction inFunction True item accepts) (turns : Nat) :
    Tightens restriction inFunction True (Parse.separated item turns) fun items =>
      ∀ value ∈ items, accepts value := by
  induction turns with
  | zero => exact .exhausted
  | succ turns ih =>
    rw [Parse.separated]
    apply Tightens.step tightens
    intro first
    apply Tightens.consumeIf
    intro comma
    split
    · apply Tightens.step ih
      intro others
      exact .pure (by simp)
    · exact .pure (by simp)

end Tightens

end Parse

end EcmaScript
