import EcmaScript.Proofs.Alignment

/-!
# Rules for parses that follow others

One rule for each way in which actions are put together. An action that a parse may begin or end at
an edge has its rule for both extents; where an edge is out of question, the parses see tokens that
match.
-/

namespace EcmaScript

namespace Alignment.Follows

open Parse

variable {α β : Type} [Located α] [Located β] {σ : Alignment} {enter middle exit : Extent}
  {known : Prop} {after : α → Prop} {afterRest : β → Prop}

theorem bind {action other : Parse α} {rest others : α → Parse β}
    (first : σ.Follows enter middle known action other after)
    (second : ∀ value result, σ.Same value result →
      σ.Follows middle exit (after value) (rest value) (others result) afterRest) :
    σ.Follows enter exit known (action >>= rest) (other >>= others) afterRest := by
  constructor
  · intro state result last reached run
    obtain ⟨value, between, run, runRest⟩ := bind_eq_ok.mp run
    obtain ⟨reached, ⟨mate, same⟩, back⟩ := first.heeds reached run
    obtain ⟨reached, exists_, backRest⟩ := (second value mate same).heeds reached runRest
    exact ⟨reached, exists_, fun ahead => back (backRest ahead)⟩
  · intro phase state mate result last related run ahead
    obtain ⟨value, between, run, runRest⟩ := bind_eq_ok.mp run
    obtain ⟨reached, ⟨_, same⟩, _⟩ := first.heeds related.reached run
    obtain ⟨_, _, back⟩ := (second value _ same).heeds reached runRest
    obtain ⟨found, middle, follows, same, related⟩ := first.ok related run (back ahead)
    obtain ⟨final, end_, followsRest, same, related⟩ :=
      (second value found same).ok related runRest ahead
    exact ⟨final, end_, bind_eq_ok.mpr ⟨found, middle, follows, followsRest⟩, same, related⟩
  · intro state fault last reached run possible
    rcases bind_eq_error.mp run with run | ⟨value, between, run, runRest⟩
    · exact first.fails reached run possible
    · obtain ⟨reached, ⟨mate, same⟩, back⟩ := first.heeds reached run
      obtain ⟨point, reached, fails, backRest⟩ :=
        (second value mate same).fails reached runRest possible
      exact ⟨point, reached, fails, fun ahead _ => back (backRest ahead)⟩
  · intro phase state mate fault last related run possible doomed
    rcases bind_eq_error.mp run with run | ⟨value, between, run, runRest⟩
    · obtain ⟨found, middle, follows, same⟩ := first.error related run possible doomed
      exact ⟨found, middle, bind_eq_error.mpr (.inl follows), same⟩
    · obtain ⟨reached, ⟨_, same⟩, _⟩ := first.heeds related.reached run
      have ahead := (second value _ same).ahead reached runRest possible doomed phase
      obtain ⟨found, middle, follows, same, related⟩ := first.ok related run ahead
      obtain ⟨final, end_, followsRest, sameFault⟩ :=
        (second value found same).error related runRest possible doomed
      exact ⟨final, end_, bind_eq_error.mpr (.inr ⟨found, middle, follows, followsRest⟩), sameFault⟩

/-- What was found out before goes along with an action that does not need it. -/
theorem frame {action other : Parse α} (follows : σ.Follows enter exit known action other after)
    (earlier : Prop) :
    σ.Follows enter exit (earlier ∨ known) action other fun value => earlier ∨ after value := by
  constructor
  · intro state value last reached run
    obtain ⟨reached, exists_, back⟩ := follows.heeds reached run
    refine ⟨reached, exists_, ?_⟩
    intro phase ahead
    rw [← or_assoc] at ahead ⊢
    exact back ahead
  · intro phase state mate value last related run ahead
    simp only [← or_assoc] at related ahead ⊢
    exact follows.ok related run ahead
  · intro state fault last reached run possible
    obtain ⟨point, reached, fails, back⟩ := follows.fails reached run possible
    refine ⟨point, reached, fails, fun ahead phase => ?_⟩
    rw [← or_assoc]
    exact back ahead
  · intro phase state mate fault last related run possible doomed
    simp only [← or_assoc] at related
    exact follows.error related run possible doomed

/-- The same actions with conditions that say the same. -/
theorem congr {action other : Parse α} {earlier : Prop} {later : α → Prop}
    (follows : σ.Follows enter exit known action other after) (same : earlier ↔ known)
    (sameAfter : ∀ value, later value ↔ after value) :
    σ.Follows enter exit earlier action other later := by
  have equal : later = after := funext fun value => propext (sameAfter value)
  rw [equal, propext same]
  exact follows

/-- An action of its own, and then the rest with what has been found out. -/
theorem step {action other : Parse α} {rest others : α → Parse β}
    (first : σ.Follows enter middle False action other after)
    (second : ∀ value result, σ.Same value result →
      σ.Follows middle exit (known ∨ after value) (rest value) (others result) afterRest) :
    σ.Follows enter exit known (action >>= rest) (other >>= others) afterRest :=
  ((first.frame known).congr (by simp) fun _ => Iff.rfl).bind second

/-- An action that finds nothing out. -/
theorem skip {action other : Parse Unit} {rest others : Unit → Parse β}
    (first : σ.Follows enter middle False action other fun _ => False)
    (second : σ.Follows middle exit known (rest ()) (others ()) afterRest) :
    σ.Follows enter exit known (action >>= rest) (other >>= others) afterRest :=
  first.step fun _ _ _ => second.congr (by simp) fun _ => Iff.rfl

theorem pure {value result : α} (same : σ.Same value result) (found : after value ↔ known) :
    σ.Follows exit exit known (Pure.pure value) (Pure.pure result) after := by
  have equal : (∀ phase : Prop, (phase ∨ after value) = (phase ∨ known)) := by
    intro phase
    rw [propext found]
  constructor
  · rintro state _ last reached ⟨⟩
    refine ⟨reached, ⟨result, same⟩, ?_⟩
    intro phase ahead
    rwa [equal] at ahead
  · rintro phase state mate _ last related ⟨⟩ ahead
    refine ⟨result, mate, rfl, same, ?_⟩
    rwa [equal]
  · rintro state fault last _ ⟨⟩
  · rintro phase state mate fault last _ ⟨⟩

/-- A fault of both parses. -/
theorem fail {cause : Cause} {position other : Position}
    (grammatical : cause.category ≠ .lexical) (same : σ.Same position other) :
    σ.Follows enter exit known (Parse.fail cause position : Parse α) (Parse.fail cause other)
      after := by
  constructor
  · rintro state value last _ ⟨⟩
  · rintro phase state mate value last _ ⟨⟩
  · rintro state fault last reached ⟨⟩ _
    exact ⟨_, reached, .here grammatical, fun ahead _ => σ.ahead_of_inside ahead⟩
  · rintro phase state mate fault last _ ⟨⟩ _ _
    exact ⟨_, mate, rfl, rfl, same⟩

theorem fail_bind {γ : Type} {cause : Cause} {position other : Position} {rest others : γ → Parse α}
    (grammatical : cause.category ≠ .lexical) (same : σ.Same position other) :
    σ.Follows enter exit known ((Parse.fail cause position : Parse γ) >>= rest)
      (Parse.fail cause other >>= others) after :=
  fail grammatical same

/-- A fault of both parses if something holds. -/
theorem refuse {γ : Type} {condition : Prop} [Decidable condition] {cause : Cause}
    {position opening : Position} {rest others : γ → Parse α} {action other : Parse α}
    (grammatical : cause.category ≠ .lexical) (same : σ.Same position opening)
    (next : σ.Follows enter exit known action other after) :
    σ.Follows enter exit known
      (if condition then Parse.fail cause position >>= rest else action)
      (if condition then Parse.fail cause opening >>= others else other) after := by
  split
  · exact .fail_bind grammatical same
  · exact next

/-- A fault of both parses unless something holds. -/
theorem need {γ : Type} {condition : Prop} [Decidable condition] {cause : Cause}
    {position opening : Position} {rest others : γ → Parse α} {action other : Parse α}
    (grammatical : cause.category ≠ .lexical) (same : σ.Same position opening)
    (next : σ.Follows enter exit known action other after) :
    σ.Follows enter exit known
      (if condition then action else Parse.fail cause position >>= rest)
      (if condition then other else Parse.fail cause opening >>= others) after := by
  split
  · exact next
  · exact .fail_bind grammatical same

/-- Constructs that are nested too deeply are not followed. -/
theorem exhausted {other : Parse α} :
    σ.Follows enter exit known Parse.exhausted other after := by
  constructor
  · rintro state value last _ ⟨⟩
  · rintro phase state mate value last _ ⟨⟩
  · rintro state fault last _ ⟨⟩ possible
    exact absurd rfl possible
  · rintro phase state mate fault last _ ⟨⟩ possible
    exact absurd rfl possible

theorem map {γ : Type} [Located γ] {action other : Parse α} {function : α → γ} {later : γ → Prop}
    (follows : σ.Follows enter exit known action other after)
    (same : ∀ value result, σ.Same value result → σ.Same (function value) (function result))
    (found : ∀ value, later (function value) ↔ after value) :
    σ.Follows enter exit known (function <$> action) (function <$> other) later := by
  rw [map_eq_pure_bind, map_eq_pure_bind]
  exact follows.bind fun value result related => .pure (same value result related) (found value)

/-- To come only in front of an edge is more than to come up to it. -/
theorem narrow {action other : Parse α} (follows : σ.Follows enter exit known action other after) :
    σ.Follows enter .inside known action other after := by
  have forward : ∀ {phase point}, σ.Ahead .inside phase point → σ.Ahead exit phase point := by
    intro phase point ahead
    cases exit with
    | inside => exact ahead
    | edge => exact σ.ahead_weaken ahead
  constructor
  · intro state value last reached run
    obtain ⟨reached, exists_, back⟩ := follows.heeds reached run
    exact ⟨reached, exists_, fun ahead => back (forward ahead)⟩
  · intro phase state mate value last related run ahead
    exact follows.ok related run (forward ahead)
  · exact follows.fails
  · exact follows.error

theorem upon {token : Token} {action other : Parse α}
    (follows : σ.Follows enter exit known action other after) :
    σ.Follows enter exit known (Parse.upon token action) other after := by
  constructor
  · intro state value last reached run
    exact follows.heeds reached (upon_eq_ok.mp run).2
  · intro phase state mate value last related run ahead
    exact follows.ok related (upon_eq_ok.mp run).2 ahead
  · intro state fault last reached run possible
    exact follows.fails reached (upon_eq_error possible run).2 possible
  · intro phase state mate fault last related run possible doomed
    exact follows.error related (upon_eq_error possible run).2 possible doomed

section Looks

/-- A parse looks at its token of lookahead. Where the two may stand at an edge, the first one either
goes on from a token that it will consume, or both stop at what they see. -/
theorem look {rest others : Token → Parse α} (stops : Token → Prop)
    (alike : ∀ {token other}, token.Matches σ.left σ.right other → (stops other ↔ stops token))
    (closing : ∀ {first second}, enter = .edge → σ.Edge first second → stops second.lookahead)
    (goes : ∀ token other, token.Matches σ.left σ.right other → ¬stops token →
      σ.Follows .inside exit known (Parse.upon token (rest token)) (others other) after)
    (stays : ∀ token other, stops token → stops other →
      σ.Follows enter exit known (rest token) (others other) after) :
    σ.Follows enter exit known (Parse.lookahead >>= rest) (Parse.lookahead >>= others) after := by
  -- What the first parse does is an action that only depends on the token that it sees.
  have seen : ∀ (rest : Token → Parse α) (state : State),
      (Parse.lookahead >>= rest) state = Parse.upon state.lookahead (rest state.lookahead) state :=
    fun rest state => (upon_eq rfl).symm
  -- Where the first parse stops in front of what lies ahead, the second one stops as well.
  have stopsToo : ∀ {phase : Prop} {state mate : State}, σ.Related phase state mate →
      stops state.lookahead → σ.Ahead enter phase state.point → stops mate.lookahead := by
    intro phase state mate related stop ahead
    rcases related.points with level | ⟨before, edge⟩
    · exact (alike (σ.matches_of_level level)).mpr stop
    · cases enter with
      | inside => exact absurd (σ.phase_of_edge edge ahead) before
      | edge => exact closing rfl edge
  constructor
  · intro state value last reached run
    rw [seen] at run
    obtain ⟨mate, same⟩ := exists_matches (σ := σ) state.lookahead
    by_cases stop : stops state.lookahead
    · exact (stays _ _ stop ((alike same).mpr stop)).heeds reached (upon_eq_ok.mp run).2
    · obtain ⟨reached, exists_, back⟩ := (goes _ mate same stop).heeds reached run
      exact ⟨reached, exists_, fun ahead => σ.ahead_of_inside (back ahead)⟩
  · intro phase state mate value last related run ahead
    rw [seen] at run
    rw [show (Parse.lookahead >>= others) mate = others mate.lookahead mate from rfl]
    by_cases stop : stops state.lookahead
    · have matched := exists_matches (σ := σ) state.lookahead
      obtain ⟨other, same⟩ := matched
      obtain ⟨_, _, back⟩ := (stays _ other stop ((alike same).mpr stop)).heeds related.reached
        (upon_eq_ok.mp run).2
      exact (stays _ _ stop (stopsToo related stop (back ahead))).ok related
        (upon_eq_ok.mp run).2 ahead
    · obtain ⟨other, same⟩ := exists_matches (σ := σ) state.lookahead
      obtain ⟨_, _, back⟩ := (goes _ other same stop).heeds related.reached run
      have same := σ.matches_of_level (related.level (back ahead))
      exact (goes _ _ same stop).ok related run ahead
  · intro state fault last reached run possible
    rw [seen] at run
    obtain ⟨mate, same⟩ := exists_matches (σ := σ) state.lookahead
    by_cases stop : stops state.lookahead
    · exact (stays _ _ stop ((alike same).mpr stop)).fails reached
        (upon_eq_error possible run).2 possible
    · obtain ⟨point, reached, fails, back⟩ := (goes _ mate same stop).fails reached run possible
      exact ⟨point, reached, fails, fun ahead _ => σ.ahead_of_inside (back ahead)⟩
  · intro phase state mate fault last related run possible doomed
    rw [seen] at run
    rw [show (Parse.lookahead >>= others) mate = others mate.lookahead mate from rfl]
    obtain ⟨other, same⟩ := exists_matches (σ := σ) state.lookahead
    by_cases stop : stops state.lookahead
    · have run := (upon_eq_error possible run).2
      have ahead := (stays _ other stop ((alike same).mpr stop)).ahead related.reached run possible
        doomed phase
      exact (stays _ _ stop (stopsToo related stop ahead)).error related run possible doomed
    · have ahead := (goes _ other same stop).ahead related.reached run possible doomed phase
      have same := σ.matches_of_level (related.level ahead)
      exact (goes _ _ same stop).error related run possible doomed

/-- In front of an edge the parses see tokens that match. -/
theorem lookahead {rest others : Token → Parse α}
    (each : ∀ token other, token.Matches σ.left σ.right other →
      σ.Follows .inside exit known (Parse.upon token (rest token)) (others other) after) :
    σ.Follows .inside exit known (Parse.lookahead >>= rest) (Parse.lookahead >>= others) after :=
  .look (fun _ => False) (by simp) (by rintro _ _ ⟨⟩)
    (fun token other same _ => each token other same) fun _ _ => False.elim

/-- The parses look once more at tokens that have been seen. -/
theorem lookahead_again {token : Token} {rest others : Token → Parse α}
    (each : ∀ other, token.Matches σ.left σ.right other →
      σ.Follows .inside exit known (Parse.upon token (rest token)) (others other) after) :
    σ.Follows .inside exit known (Parse.upon token (Parse.lookahead >>= rest))
      (Parse.lookahead >>= others) after := by
  have equal : Parse.upon token (Parse.lookahead >>= rest) = Parse.lookahead >>= fun seen =>
      if seen = token then rest token else Parse.exhausted := by
    funext state
    by_cases here : state.lookahead = token
    · exact (upon_eq here).trans (by
        change rest state.lookahead state = (if _ then _ else _ : Parse α) state
        rw [if_pos here, here])
    · change Parse.upon token _ state = (if _ then _ else _ : Parse α) state
      rw [Parse.upon, if_neg here, if_neg here]
  rw [equal]
  apply Follows.lookahead
  intro seen other same
  split
  · rename_i here
    cases here
    exact each other same
  · exact .upon .exhausted

theorem kind {rest others : Kind → Parse α}
    (each : ∀ kind, σ.Follows .inside exit known (rest kind) (others kind) after) :
    σ.Follows .inside exit known (Parse.kind >>= rest) (Parse.kind >>= others) after := by
  rw [Parse.kind, bind_assoc, bind_assoc]
  apply Follows.lookahead
  intro token other same
  rw [pure_bind, pure_bind, same.kind]
  exact (each token.kind).upon

theorem sees {expected : Kind} {rest others : Bool → Parse α}
    (each : ∀ found, σ.Follows .inside exit known (rest found) (others found) after) :
    σ.Follows .inside exit known (Parse.sees expected >>= rest) (Parse.sees expected >>= others)
      after := by
  rw [Parse.sees, bind_assoc, bind_assoc]
  exact .kind fun kind => each (kind == expected)

theorem nodeStart {rest others : Position → Parse α}
    (each : ∀ start other, σ.Same start other →
      σ.Follows .inside exit known (rest start) (others other) after) :
    σ.Follows .inside exit known (Parse.nodeStart >>= rest) (Parse.nodeStart >>= others) after := by
  rw [Parse.nodeStart, bind_assoc, bind_assoc]
  apply Follows.lookahead
  intro token other same
  rw [pure_bind, pure_bind]
  exact (each token.span.start other.span.start same.start).upon

theorem unexpected : σ.Follows .inside exit known (Parse.unexpected : Parse α) Parse.unexpected
    after := by
  rw [Parse.unexpected]
  apply Follows.lookahead
  intro token other same
  rw [same.unexpected]
  exact .upon (.fail (by rintro ⟨⟩) same.start)

/-- An action that depends on what the states of the two parses have in common. -/
theorem get {rest others : State → Parse α}
    (each : ∀ first second : State,
      { second.context with inFunction := first.context.inFunction } = first.context →
      second.labels = first.labels →
      (second.context.inFunction || second.options.allowReturnOutsideFunction) =
        (first.context.inFunction || first.options.allowReturnOutsideFunction) →
      σ.Follows enter exit known (rest first) (others second) after) :
    σ.Follows enter exit known (MonadState.get >>= rest) (MonadState.get >>= others) after := by
  constructor
  · intro state value last reached run
    exact (each state state rfl rfl rfl).heeds reached run
  · intro phase state mate value last related run ahead
    exact (each state mate related.context related.labels related.returns).ok related run ahead
  · intro state fault last reached run possible
    exact (each state state rfl rfl rfl).fails reached run possible
  · intro phase state mate fault last related run possible doomed
    exact (each state mate related.context related.labels related.returns).error related run
      possible doomed

theorem isStrict {rest others : Bool → Parse α}
    (each : ∀ strict, σ.Follows enter exit known (rest strict) (others strict) after) :
    σ.Follows enter exit known (Parse.isStrict >>= rest) (Parse.isStrict >>= others) after := by
  rw [Parse.isStrict, bind_assoc, bind_assoc]
  apply Follows.get
  intro first second context _ _
  rw [pure_bind, pure_bind, ← context]
  exact each second.context.strict

theorem spanFrom {start opening : Position} {rest others : Span → Parse α}
    (same : σ.Same start opening)
    (each : ∀ span other, σ.Same span other →
      σ.Follows enter exit known (rest span) (others other) after) :
    σ.Follows enter exit known (Parse.spanFrom start >>= rest) (Parse.spanFrom opening >>= others)
      after := by
  constructor
  · intro state value last reached run
    exact (each _ _ (same.span (σ.right_mate state.consumedEnd).symm)).heeds reached run
  · intro phase state mate value last related run ahead
    exact (each _ _ (same.span related.consumedEnd)).ok related run ahead
  · intro state fault last reached run possible
    exact (each _ _ (same.span (σ.right_mate state.consumedEnd).symm)).fails reached run possible
  · intro phase state mate fault last related run possible doomed
    exact (each _ _ (same.span related.consumedEnd)).error related run possible doomed

end Looks

section Tokens

/-- Another token of lookahead takes the place of the one that is consumed. -/
theorem consume {token : Token} (inside : token.lexeme ≠ .endOfFile) :
    σ.Follows .inside exit known (Parse.upon token Parse.consume) Parse.consume fun _ => known := by
  have forward : ∀ {phase point}, σ.Ahead exit phase point → σ.Ahead .edge phase point := by
    intro phase point ahead
    cases exit with
    | inside => exact σ.ahead_weaken ahead
    | edge => exact ahead
  constructor
  · rintro state ⟨⟩ next reached run
    obtain ⟨rfl, inner⟩ := upon_eq_ok.mp run
    have advances := advances_of_consume inside inner
    exact ⟨σ.reached_of_advances reached advances, ⟨(), rfl⟩,
      fun ahead => σ.ahead_of_advances reached advances (forward ahead)⟩
  · rintro phase state mate ⟨⟩ next related run ahead
    obtain ⟨rfl, inner⟩ := upon_eq_ok.mp run
    obtain ⟨last, runToo, relatedToo, _⟩ := related.consume inside inner (forward ahead)
    exact ⟨(), last, runToo, rfl, relatedToo⟩
  · intro state fault next reached run possible
    obtain ⟨rfl, inner⟩ := upon_eq_error possible run
    obtain ⟨cursor, scanned, rfl⟩ := consume_eq_error.mp inner
    exact ⟨_, reached, .token inside scanned, fun ahead _ => ahead⟩
  · intro phase state mate fault next related run possible doomed
    obtain ⟨rfl, inner⟩ := upon_eq_error possible run
    exact related.consume_error inside inner doomed

/-- A token is consumed, and then the parses go on. -/
theorem consumes {token : Token} {rest others : Unit → Parse α} (inside : token.lexeme ≠ .endOfFile)
    (each : σ.Follows middle exit known (rest ()) (others ()) after) :
    σ.Follows .inside exit known (Parse.upon token (Parse.consume >>= rest))
      (Parse.consume >>= others) after := by
  rw [upon_bind]
  exact .bind (.consume inside) fun _ _ _ => each

/-- An action that leaves the token of lookahead where it is, and then the rest in front of it. -/
theorem holding {token : Token} {action other : Parse Unit} {rest others : Unit → Parse α}
    (keeps : ∀ {state next}, action state = .ok () next → next.lookahead = state.lookahead)
    (first : σ.Follows enter middle False action other fun _ => False)
    (second : σ.Follows middle exit known (Parse.upon token (rest ())) (others ()) after) :
    σ.Follows enter exit known (Parse.upon token (action >>= rest)) (other >>= others) after := by
  have equal : Parse.upon token (action >>= rest) =
      Parse.upon token (action >>= fun value => Parse.upon token (rest value)) := by
    funext state
    by_cases here : state.lookahead = token
    · rw [upon_eq here, upon_eq here]
      change EStateM.bind _ _ state = EStateM.bind _ _ state
      unfold EStateM.bind
      cases run : action state with
      | error => rfl
      | ok value next => exact (upon_eq ((keeps run).trans here)).symm
    · rw [Parse.upon, Parse.upon, if_neg here, if_neg here]
  rw [equal]
  exact .upon (.skip first second)

/-- The slash that is the token of lookahead is read again in both texts. -/
theorem reread {token : Token} {front : List Char} (slash : Scan.slash? token.lexeme = some front) :
    σ.Follows .inside .inside known (Parse.upon token (Parse.reread front)) (Parse.reread front)
      fun _ => known := by
  have rereads : ∀ {state next : State}, Parse.upon token (Parse.reread front) state = .ok () next →
      state.point.Rereads next.point ∧ ∃ events,
        next = { state with cursor := next.cursor, lookahead := next.lookahead, events } := by
    intro state next run
    obtain ⟨here, run⟩ := upon_eq_ok.mp run
    obtain ⟨found, cursor, scanned, rfl⟩ := reread_eq_ok.mp run
    exact ⟨⟨front, found, cursor, by rwa [← here] at slash, scanned, rfl⟩, _, rfl⟩
  constructor
  · rintro state ⟨⟩ next reached run
    obtain ⟨rereads, _⟩ := rereads run
    exact ⟨σ.reached_of_rereads reached rereads, ⟨(), rfl⟩,
      fun ahead => σ.ahead_of_rereads reached rereads ahead⟩
  · rintro phase state mate ⟨⟩ next related run ahead
    have here := (upon_eq_ok.mp run).1
    obtain ⟨rereads, events, equal⟩ := rereads run
    have level := related.level (σ.ahead_of_rereads related.reached rereads ahead)
    obtain ⟨other, rereadsToo, levelToo⟩ := σ.rereads level related.reached rereads ahead
    obtain ⟨same, found, cursor, slashToo, scanned, rfl⟩ := rereadsToo
    have equalFront : same = front := by
      have lexeme := (σ.matches_of_level level).lexeme
      rw [lexeme, show state.point.lookahead = token from here, slash] at slashToo
      exact (Option.some.inj slashToo).symm
    rw [equalFront] at scanned
    refine ⟨(), _, reread_eq_ok.mpr ⟨found, cursor, scanned, rfl⟩, rfl, ?_⟩
    rw [equal] at levelToo rereads ⊢
    exact { related with
      reached := σ.reached_of_rereads related.reached rereads
      points := .inl levelToo }
  · intro state fault next reached run possible
    obtain ⟨rfl, inner⟩ := upon_eq_error possible run
    obtain ⟨cursor, scanned, rfl⟩ := reread_eq_error.mp inner
    exact ⟨_, reached, .regularExpression slash scanned, fun ahead _ => ahead⟩
  · intro phase state mate fault next related run possible doomed
    obtain ⟨rfl, inner⟩ := upon_eq_error possible run
    obtain ⟨cursor, scanned, rfl⟩ := reread_eq_error.mp inner
    have level := related.level_of_doomed (.regularExpression slash scanned) doomed
    obtain ⟨other, last, scannedToo, same⟩ :=
      σ.fault_of_regularExpression level related.reached slash scanned doomed
    exact ⟨other, _, reread_eq_error.mpr ⟨last, scannedToo, rfl⟩, same⟩

/-- A symbol is consumed if both parses see it. -/
theorem consumeIf {symbol : Symbol} {rest others : Bool → Parse α}
    (apart : ∀ {first second}, enter = .edge → σ.Edge first second →
      second.lookahead.kind ≠ .symbol symbol)
    (hit : σ.Follows middle exit known (rest true) (others true) after)
    (miss : σ.Follows enter exit known (rest false) (others false) after) :
    σ.Follows enter exit known (Parse.consumeIf (.symbol symbol) >>= rest)
      (Parse.consumeIf (.symbol symbol) >>= others) after := by
  rw [consumeIf_bind, consumeIf_bind]
  apply Follows.look fun token => token.kind ≠ .symbol symbol
  · intro token other same
    rw [same.kind]
  · exact apart
  · intro token other same found
    have found : token.kind = .symbol symbol := Decidable.not_not.mp found
    rw [if_pos found, if_pos (same.kind.trans found)]
    exact .consumes (lexeme_ne_endOfFile found) hit
  · intro token other missed missedToo
    rw [if_neg missed, if_neg missedToo]
    exact miss

/-- At an edge the second parse sees a semicolon or a closing brace. -/
theorem kind_ne_of_edge {symbol : Symbol} (apart : symbol ≠ Punctuator.semicolon := by decide)
    (apartToo : symbol ≠ Punctuator.rightBrace := by decide) {first second : Point}
    (_ : enter = .edge) (edge : σ.Edge first second) :
    second.lookahead.kind ≠ .symbol symbol := by
  intro found
  rcases σ.closing_of_edge edge with closing | closing
  · exact apart (Kind.symbol.inj (found.symm.trans closing))
  · exact apartToo (Kind.symbol.inj (found.symm.trans closing))

/-- One of two ways is taken by what both parses see. -/
theorem ifSees {symbol : Symbol} {rest others : Bool → Parse α}
    (apart : ∀ {first second}, enter = .edge → σ.Edge first second →
      second.lookahead.kind ≠ .symbol symbol)
    (hit : σ.Follows .inside exit known (rest true) (others true) after)
    (miss : σ.Follows enter exit known (rest false) (others false) after) :
    σ.Follows enter exit known (Parse.sees (.symbol symbol) >>= rest)
      (Parse.sees (.symbol symbol) >>= others) after := by
  rw [Parse.sees, Parse.kind]
  simp only [bind_assoc, pure_bind]
  apply Follows.look fun token => token.kind ≠ .symbol symbol
  · intro token other same
    rw [same.kind]
  · exact apart
  · intro token other same found
    have found : token.kind = .symbol symbol := Decidable.not_not.mp found
    rw [same.kind, found, beq_self_eq_true]
    exact .upon hit
  · intro token other missed missedToo
    rw [beq_eq_false_iff_ne.mpr missed, beq_eq_false_iff_ne.mpr missedToo]
    exact miss

theorem require {symbol : Symbol} :
    σ.Follows .inside exit False (Parse.require (.symbol symbol)) (Parse.require (.symbol symbol))
      fun _ => False := by
  rw [Parse.require, Parse.sees, Parse.kind]
  simp only [bind_assoc, pure_bind]
  apply Follows.lookahead
  intro token other same
  rw [same.kind]
  split
  · rename_i found
    exact .consume (lexeme_ne_endOfFile (by simpa using found))
  · exact .upon .unexpected

/-- Both parses go on in strict code. -/
theorem enableStrict :
    σ.Follows enter enter known Parse.enableStrict Parse.enableStrict fun _ => known := by
  have point : ∀ {state next : State}, Parse.enableStrict state = .ok () next →
      next.point = state.point := by
    intro state next run
    obtain ⟨events, tokens, succeeds⟩ := enableStrict_ok state
    rw [succeeds] at run
    cases run
    exact congrArg (Point.mk _ _ _) tokens
  constructor
  · rintro state ⟨⟩ next reached run
    rw [point run]
    exact ⟨reached, ⟨(), rfl⟩, id⟩
  · rintro phase state mate ⟨⟩ next related run ahead
    obtain ⟨others, _, succeedsToo⟩ := enableStrict_ok mate
    have pointToo := point succeedsToo
    refine ⟨(), _, succeedsToo, rfl, ?_⟩
    have same := point run
    obtain ⟨events, _, succeeds⟩ := enableStrict_ok state
    rw [succeeds] at run
    cases run
    exact { related with
      reached := same ▸ related.reached
      points := by rw [same, pointToo]; exact related.points
      context := congrArg (fun context : Context => { context with strict := true })
        related.context }
  · rintro state fault next _ run _
    obtain ⟨events, _, succeeds⟩ := enableStrict_ok state
    rw [succeeds] at run
    cases run
  · rintro phase state mate fault next _ run _ _
    obtain ⟨events, _, succeeds⟩ := enableStrict_ok state
    rw [succeeds] at run
    cases run

/-- The end of a statement. Either both texts have it, or an edge lies behind from now on. -/
theorem ended {start opening : Position} {rest others : Span → Parse α}
    (same : σ.Same start opening)
    (each : ∀ span other, σ.Same span other →
      σ.Follows σ.extent exit (known ∨ σ.Ends span.stop) (rest span) (others other) after) :
    σ.Follows .edge exit known
      (Parse.semicolon >>= fun _ => Parse.spanFrom start >>= rest)
      (Parse.semicolon >>= fun _ => Parse.spanFrom opening >>= others) after := by
  constructor
  · intro state value last reached run
    obtain ⟨⟨⟩, next, run, runRest⟩ := bind_eq_ok.mp run
    obtain ⟨reachedNext, _⟩ := heeds_semicolon True reached run
    obtain ⟨reachedLast, exists_, backRest⟩ :=
      (each _ _ (same.span (σ.right_mate next.consumedEnd).symm)).heeds reachedNext runRest
    refine ⟨reachedLast, exists_, ?_⟩
    intro phase ahead
    apply (heeds_semicolon (phase ∨ known) reached run).2
    simpa only [or_assoc] using backRest ahead
  · intro phase state mate value last related run ahead
    obtain ⟨⟨⟩, next, run, runRest⟩ := bind_eq_ok.mp run
    obtain ⟨reachedNext, _⟩ := heeds_semicolon phase related.reached run
    obtain ⟨_, _, backRest⟩ :=
      (each _ _ (same.span (σ.right_mate next.consumedEnd).symm)).heeds reachedNext runRest
    obtain ⟨follower, runToo, relatedToo⟩ :=
      related.semicolon run (by simpa only [or_assoc] using backRest ahead)
    rw [or_assoc] at relatedToo
    obtain ⟨result, final, runRestToo, final_⟩ :=
      (each _ _ (same.span relatedToo.consumedEnd)).ok relatedToo runRest ahead
    exact ⟨result, final, bind_eq_ok.mpr ⟨(), follower, runToo, runRestToo⟩, final_⟩
  · intro state fault last reached run possible
    rcases bind_eq_error.mp run with run | ⟨⟨⟩, next, run, runRest⟩
    · exact ⟨_, reached, fails_semicolon run, fun ahead _ => σ.ahead_of_inside ahead⟩
    · obtain ⟨reachedNext, _⟩ := heeds_semicolon True reached run
      obtain ⟨point, reachedPoint, fails, backRest⟩ :=
        (each _ _ (same.span (σ.right_mate next.consumedEnd).symm)).fails reachedNext runRest possible
      refine ⟨point, reachedPoint, fails, fun ahead phase => ?_⟩
      apply (heeds_semicolon (phase ∨ known) reached run).2
      simpa only [or_assoc] using backRest ahead
  · intro phase state mate fault last related run possible doomed
    rcases bind_eq_error.mp run with run | ⟨⟨⟩, next, run, runRest⟩
    · obtain ⟨result, final, runToo, same⟩ := related.semicolon_error run doomed
      exact ⟨result, final, bind_eq_error.mpr (.inl runToo), same⟩
    · obtain ⟨reachedNext, _⟩ := heeds_semicolon phase related.reached run
      have ahead := (each _ _ (same.span (σ.right_mate next.consumedEnd).symm)).ahead reachedNext
        runRest possible doomed phase
      obtain ⟨follower, runToo, relatedToo⟩ :=
        related.semicolon run (by simpa only [or_assoc] using ahead)
      rw [or_assoc] at relatedToo
      obtain ⟨result, final, runRestToo, same⟩ :=
        (each _ _ (same.span relatedToo.consumedEnd)).error relatedToo runRest possible doomed
      exact ⟨result, final, bind_eq_error.mpr (.inr ⟨(), follower, runToo, runRestToo⟩), same⟩

end Tokens

section Surroundings

/-- An action in other surroundings, which are entered and left alike. -/
theorem within {action other : Parse α} {change : State → State} {leave : State → State → State}
    (enters : ∀ state : State, (change state).point = state.point)
    (leaves : ∀ state next : State, (leave state next).point = next.point)
    (relatedInside : ∀ {phase first second}, σ.Related phase first second →
      σ.Related phase (change first) (change second))
    (relatedAfter : ∀ {phase later first second next last}, σ.Related phase first second →
      σ.Related later next last → σ.Related later (leave first next) (leave second last))
    (follows : σ.Follows enter exit known action other after) :
    σ.Follows enter exit known (Parse.within change leave action)
      (Parse.within change leave other) after := by
  constructor
  · intro state value next reached run
    obtain ⟨between, inner, rfl⟩ := within_eq_ok.mp run
    rw [leaves]
    have heeds := follows.heeds (by rwa [enters]) inner
    rwa [enters] at heeds
  · intro phase state mate value next related run ahead
    obtain ⟨between, inner, rfl⟩ := within_eq_ok.mp run
    rw [leaves] at ahead
    obtain ⟨result, last, innerToo, same, relatedToo⟩ :=
      follows.ok (relatedInside related) inner ahead
    exact ⟨result, _, within_eq_ok.mpr ⟨last, innerToo, rfl⟩, same, relatedAfter related relatedToo⟩
  · intro state fault next reached run possible
    obtain ⟨between, inner, rfl⟩ := within_eq_error.mp run
    rw [leaves]
    have fails := follows.fails (by rwa [enters]) inner possible
    rwa [enters] at fails
  · intro phase state mate fault next related run possible doomed
    obtain ⟨between, inner, rfl⟩ := within_eq_error.mp run
    rw [leaves] at doomed
    obtain ⟨result, last, innerToo, same⟩ :=
      follows.error (relatedInside related) inner possible doomed
    exact ⟨result, _, within_eq_error.mpr ⟨last, innerToo, rfl⟩, same⟩

variable {action other : Parse α}

theorem inContext {change : Context → Context}
    (inside : ∀ (context : Context) (inFunction : Bool),
      change { context with inFunction } = { change context with inFunction })
    (same : ∀ context : Context, (change context).inFunction = context.inFunction)
    (follows : σ.Follows enter exit known action other after) :
    σ.Follows enter exit known (Parse.inContext change action) (Parse.inContext change other)
      after := by
  refine .within (fun _ => rfl) (fun _ _ => rfl) ?_ ?_ follows
  · intro phase first second related
    refine { related with context := ?_, returns := ?_ }
    · dsimp only
      rw [same, ← inside, related.context]
    · simpa only [same] using related.returns
  · intro phase later first second next last related relatedToo
    refine { relatedToo with context := related.context, returns := ?_ }
    have returns := related.returns
    rw [related.firstReturns, related.secondReturns] at returns
    dsimp only
    rw [relatedToo.firstReturns, relatedToo.secondReturns, returns]

theorem withIn (follows : σ.Follows enter exit known action other after) :
    σ.Follows enter exit known (Parse.withIn action) (Parse.withIn other) after :=
  .inContext (fun _ _ => rfl) (fun _ => rfl) follows

theorem withoutIn (follows : σ.Follows enter exit known action other after) :
    σ.Follows enter exit known (Parse.withoutIn action) (Parse.withoutIn other) after :=
  .inContext (fun _ _ => rfl) (fun _ => rfl) follows

theorem inLoop (follows : σ.Follows enter exit known action other after) :
    σ.Follows enter exit known (Parse.inLoop action) (Parse.inLoop other) after :=
  .inContext (fun _ _ => rfl) (fun _ => rfl) follows

theorem inSwitch (follows : σ.Follows enter exit known action other after) :
    σ.Follows enter exit known (Parse.inSwitch action) (Parse.inSwitch other) after :=
  .inContext (fun _ _ => rfl) (fun _ => rfl) follows

theorem inFunction (follows : σ.Follows enter exit known action other after) :
    σ.Follows enter exit known (Parse.inFunction action) (Parse.inFunction other) after := by
  refine .within (fun _ => rfl) (fun _ _ => rfl) ?_ ?_ follows
  · intro phase first second related
    refine { related with context := ?_, labels := rfl, returns := rfl }
    rw [Context.forFunctionBody, Context.forFunctionBody, related.strict]
  · intro phase later first second next last related relatedToo
    refine { relatedToo with
      context := related.context, labels := related.labels, returns := ?_ }
    have returns := related.returns
    rw [related.firstReturns, related.secondReturns] at returns
    dsimp only
    rw [relatedToo.firstReturns, relatedToo.secondReturns, returns]

theorem withLabel {label : String} (follows : σ.Follows enter exit known action other after) :
    σ.Follows enter exit known (Parse.withLabel label action) (Parse.withLabel label other)
      after := by
  refine .within (fun _ => rfl) (fun _ _ => rfl) ?_ ?_ follows
  · intro phase first second related
    exact { related with labels := congrArg (Labels.push · label) related.labels }
  · intro phase later first second next last _ relatedToo
    exact { relatedToo with labels := congrArg Labels.pop relatedToo.labels }

end Surroundings

section Lists

variable {item other : Parse α}

theorem marks_cons {value : α} {values : List α} :
    σ.Marks (value :: values) ↔ σ.Marks value ∨ σ.Marks values := by
  simp [Marks, Located.nodes]

theorem not_marks_nil : ¬σ.Marks ([] : List α) := by
  simp [Marks, Located.nodes]

theorem same_cons {value result : α} {values results : List α} (first : σ.Same value result)
    (others : σ.Same values results) : σ.Same (value :: values) (result :: results) := by
  change Located.relocate _ _ :: Located.relocate _ values = _ :: Located.relocate _ results
  rw [first, others]

theorem marks_append {front back : List α} :
    σ.Marks (front ++ back) ↔ σ.Marks front ∨ σ.Marks back := by
  simp [Marks, Located.nodes]

theorem same_append {front frontToo back backToo : List α} (first : σ.Same front frontToo)
    (others : σ.Same back backToo) : σ.Same (front ++ back) (frontToo ++ backToo) := by
  have first : List.map _ front = List.map _ frontToo := first
  have others : List.map _ back = List.map _ backToo := others
  change List.map _ _ = List.map _ _
  rw [List.map_append, List.map_append, first, others]

/-- Items up to a token that ends them, which both parses see or which ends them at an edge. -/
theorem itemsUntil {ends : Kind → Bool} {turns turnsToo : Nat}
    (ended : enter = .edge → σ.extent = .edge ∧ ends .endOfFile = true ∧
      ends (.symbol Punctuator.rightBrace) = true)
    (follows : σ.Follows .inside enter False item other σ.Marks) (enough : turns ≤ turnsToo) :
    σ.Follows enter enter False (Parse.itemsUntil ends item turns)
      (Parse.itemsUntil ends other turnsToo) σ.Marks := by
  induction turns generalizing turnsToo with
  | zero => exact .exhausted
  | succ turns ih =>
    obtain ⟨turnsToo, rfl⟩ := Nat.exists_eq_add_of_lt enough
    rw [Parse.itemsUntil, Parse.itemsUntil, Parse.kind]
    simp only [bind_assoc, pure_bind]
    apply Follows.look fun token => ends token.kind = true
    · intro token other same
      rw [same.kind]
    · intro first second atEdge edge
      obtain ⟨extent, _, brace⟩ := ended atEdge
      rw [(σ.ended_of_edge extent edge).2]
      exact brace
    · intro token mate same goes
      rw [same.kind, if_neg goes, if_neg goes]
      apply Follows.upon
      apply Follows.step follows
      intro first result sameFirst
      apply Follows.step (ih (by omega))
      intro others results sameOthers
      refine .pure (same_cons sameFirst sameOthers) ?_
      rw [marks_cons, or_assoc, false_or]
    · intro token mate stops stopsToo
      rw [if_pos stops, if_pos stopsToo]
      exact .pure rfl (iff_of_false not_marks_nil id)

/-- One item or more, with commas between them. -/
theorem separated {turns turnsToo : Nat}
    (follows : σ.Follows .inside exit False item other σ.Marks) (enough : turns ≤ turnsToo) :
    σ.Follows .inside exit False (Parse.separated item turns) (Parse.separated other turnsToo)
      σ.Marks := by
  induction turns generalizing turnsToo with
  | zero => exact .exhausted
  | succ turns ih =>
    obtain ⟨turnsToo, rfl⟩ := Nat.exists_eq_add_of_lt enough
    rw [Parse.separated, Parse.separated]
    apply Follows.step follows
    intro first result sameFirst
    apply Follows.consumeIf
    · intro first second _ edge
      rcases σ.closing_of_edge edge with closing | closing <;> rw [closing] <;> decide
    · rw [if_pos rfl, if_pos rfl]
      apply Follows.step (ih (by omega))
      intro others results sameOthers
      refine .pure (same_cons sameFirst sameOthers) ?_
      rw [marks_cons, or_assoc, false_or]
    · refine .pure (same_cons sameFirst (by rfl)) ?_
      simp [marks_cons, not_marks_nil]

end Lists

end Alignment.Follows

end EcmaScript
