import EcmaScript.Proofs.CheckedLexer
import EcmaScript.Proofs.LexerPositions
import EcmaScript.Proofs.Partition
import EcmaScript.Proofs.StatementFaultPlaces
import EcmaScript.Proofs.Termination

/-!
# Positions of faults

A text is refused at one of its tokens, which has been consumed or stands in the lookahead, or at a
place that the scanner has moved over since it read the last token. So no fault is reported behind
the text that has been read. The scanner may also stand between two characters that move the
position together, so a place on its way is compared with the place where it stops by offset and by
position separately.
-/

namespace EcmaScript

open Parse Grammar EcmaScript.Alignment

namespace Position

/-- More text does not move a position back, even where a pair of characters is cut in two. -/
theorem after_le_append (position : Position) (front back : List Char) :
    position.after front ≤ position.after (front ++ back) := by
  fun_induction after position front with
  | case1 position => exact le_after position _
  | case2 position rest ih =>
    rw [List.cons_append, List.cons_append, after]
    exact ih
  | case3 position char rest notPair terminator ih =>
    rw [List.cons_append]
    by_cases pair : char = '\r' ∧ (rest ++ back).head? = some '\n'
    · obtain ⟨rfl, opening⟩ := pair
      obtain ⟨others, whole⟩ := List.head?_eq_some_iff.mp opening
      cases rest with
      | nil =>
        rw [whole, after]
        exact le_after _ _
      | cons next rest =>
        cases whole
        exact absurd rfl (notPair rest rfl)
    · rw [after_cons position fun carriage opening => pair ⟨carriage, opening⟩, if_pos terminator]
      exact ih
  | case4 position char rest notPair terminator ih =>
    rw [List.cons_append, after_cons, if_neg terminator]
    · exact ih
    · rintro rfl
      exact absurd rfl terminator

/-- The first character of a literal takes a column, also without the one that it escapes. -/
theorem right_le_afterLiteral (position : Position) {text : List Char} (nonempty : text ≠ []) :
    position.right 1 ≤ position.afterLiteral text := by
  have later : position.right 1 ≤ position.nextLine := le_iff.mpr (.inl (Nat.lt_succ_self _))
  fun_cases afterLiteral position text with
  | case1 => contradiction
  | case2 => exact le_trans later (le_afterLiteral _ _)
  | case3 => exact le_trans later (le_afterLiteral _ _)
  | case4 =>
    rw [← right_right position 1 1]
    exact le_trans (le_of_lt (lt_right _ Nat.one_pos)) (le_afterLiteral _ _)
  | case5 => exact le_afterLiteral _ _

theorem afterLiteral_le_append (position : Position) (front back : List Char) :
    position.afterLiteral front ≤ position.afterLiteral (front ++ back) := by
  fun_induction afterLiteral position front with
  | case1 position => exact le_afterLiteral position _
  | case2 position rest ih =>
    rw [List.cons_append, List.cons_append, List.cons_append, afterLiteral]
    exact ih
  | case3 position char rest notPair terminator ih =>
    rw [List.cons_append, List.cons_append]
    by_cases pair : char = '\r' ∧ (rest ++ back).head? = some '\n'
    · obtain ⟨rfl, opening⟩ := pair
      obtain ⟨others, whole⟩ := List.head?_eq_some_iff.mp opening
      cases rest with
      | nil =>
        rw [whole, afterLiteral, afterLiteral]
        exact le_afterLiteral _ _
      | cons next rest =>
        cases whole
        exact absurd rfl (notPair rest rfl)
    · rw [afterLiteral, if_pos terminator]
      · exact ih
      · intro others carriage whole
        exact pair ⟨carriage, List.head?_eq_some_iff.mpr ⟨others, whole⟩⟩
  | case4 position char rest notPair terminator ih =>
    rw [List.cons_append, List.cons_append, afterLiteral, if_neg terminator]
    · exact ih
    · rintro _ rfl _
      exact absurd rfl terminator
  | case5 position char rest notEscape notPair ih =>
    by_cases escape : char = '\\'
    · subst escape
      cases rest with
      | nil => exact right_le_afterLiteral position (List.cons_ne_nil _ _)
      | cons next rest => exact absurd rfl (notPair next rest rfl)
    · rw [List.cons_append, afterLiteral]
      · exact ih
      · exact fun _ same => absurd same escape
      · exact fun _ _ same => absurd same escape

end Position

theorem Lexeme.walk_le_append (text : List Char) (position : Position) (front back : List Char) :
    walk text position front ≤ walk text position (front ++ back) := by
  unfold walk
  split
  · exact position.afterLiteral_le_append front back
  · exact position.after_le_append front back

/-- A place comes no later than another one, neither in the text nor on the page. -/
structure Boundary.IsUpTo (left right : Boundary) : Prop where
  offset : left.offset ≤ right.offset
  position : left.position ≤ right.position

namespace Boundary

variable {first second third : Boundary}

theorem Precedes.isUpTo (precedes : first.Precedes second) : first.IsUpTo second :=
  ⟨precedes.offset_le, precedes.le_iff.1.mp precedes.offset_le⟩

theorem IsUpTo.trans (left : first.IsUpTo second) (right : second.IsUpTo third) :
    first.IsUpTo third :=
  ⟨Nat.le_trans left.offset right.offset, Position.le_trans left.position right.position⟩

end Boundary

/-- A cursor that moves over less of a text does not come further. -/
theorem Cursor.isUpTo_moveBy {cursor : Cursor} {walk : Position → List Char → Position}
    (grows : ∀ position front back, walk position front ≤ walk position (front ++ back))
    {fewer count : Nat} (less : fewer ≤ count) :
    (cursor.moveBy walk fewer).boundary.IsUpTo (cursor.moveBy walk count).boundary := by
  have more : cursor.rest.take count =
      cursor.rest.take fewer ++ (cursor.rest.drop fewer).take (count - fewer) := by
    rw [← List.take_add, Nat.add_sub_cancel' less]
  constructor
  · change cursor.offset + (cursor.rest.take fewer).length ≤
      cursor.offset + (cursor.rest.take count).length
    rw [more, List.length_append]
    omega
  · change walk cursor.position (cursor.rest.take fewer) ≤
      walk cursor.position (cursor.rest.take count)
    rw [more]
    exact grows _ _ _

namespace Scan

/-- The scanner moves from a cursor over another one when it looks for the next token: over trivia,
and then over a lexeme, until it stops. -/
inductive MovesOver (start : Cursor) : Cursor → Prop where
  | trivia {count : Nat} : count ≤ (Trivia.read start.rest).length →
      MovesOver start (start.pass count)
  | lexeme {gap count : Nat} {lineBreak : Bool} :
      Trivia.read start.rest = .success gap lineBreak →
      count ≤ (Lexeme.read (start.pass gap).rest).length →
      MovesOver start ((start.pass gap).moveBy (Lexeme.walk (start.pass gap).rest) count)

namespace MovesOver

variable {source : String} {start place : Cursor}

theorem refl (start : Cursor) : MovesOver start start := by
  have here : MovesOver start (start.pass 0) := .trivia (Nat.zero_le _)
  rwa [Cursor.pass_zero] at here

theorem precedes (moved : MovesOver start place) : start.boundary.Precedes place.boundary := by
  cases moved with
  | trivia => exact start.precedes_pass _
  | lexeme => exact (start.precedes_pass _).trans (Cursor.precedes_walk _ _ _)

/-- The scanner stops behind all that it moves over. -/
theorem isUpTo (moved : MovesOver start place) :
    place.boundary.IsUpTo (token.leaves start).boundary := by
  have passes : ∀ {fewer count}, fewer ≤ count →
      (start.pass fewer).boundary.IsUpTo (start.pass count).boundary :=
    Cursor.isUpTo_moveBy Position.after_le_append
  cases moved with
  | trivia inside =>
    cases read : Trivia.read start.rest with
    | failure length cause place =>
      rw [leaves_token_of_failure read]
      rw [read] at inside
      exact passes inside
    | success gap lineBreak =>
      rw [leaves_token_of_success read]
      rw [read] at inside
      exact (passes inside).trans (Cursor.precedes_walk _ _ _).isUpTo
  | lexeme read inside =>
    rw [leaves_token_of_success read]
    exact Cursor.isUpTo_moveBy (Lexeme.walk_le_append _) inside

end MovesOver

/-- A fault of a token is at a place that the scanner has moved over. -/
theorem movesOver_of_fault {start after : Cursor} {fault : Fault}
    (scanned : token start = .error fault after) :
    ∃ place, MovesOver start place ∧ fault.position = place.position := by
  simp only [token, bind, EStateM.bind] at scanned
  split at scanned
  · rename_i lineBreak middle found
    unfold trivia at found
    split at found
    · rename_i gap _ between
      cases found
      unfold lexeme at scanned
      dsimp only at scanned
      have inside := Lexeme.isLexical_read (start.pass gap).rest
      split at scanned
      · cases scanned
      · rename_i length cause place read
        cases scanned
        rw [read] at inside
        exact ⟨_, .lexeme between (by rw [read]; exact inside.2.2), rfl⟩
    · cases found
  · rename_i found
    unfold trivia at found
    have between := Trivia.isLexical_read start.rest
    split at found
    · cases found
    · rename_i length cause place read
      cases found
      cases scanned
      rw [read] at between
      exact ⟨_, .trivia (by rw [read]; exact between.2.2), rfl⟩

/-- A fault of a regular expression is at its slash. -/
theorem position_of_regularExpression {slash : Token} {front : List Char} {cursor after : Cursor}
    {fault : Fault} (scanned : regularExpression slash front cursor = .error fault after) :
    fault.position = slash.span.start := by
  unfold regularExpression at scanned
  split at scanned
  · cases scanned
  · cases scanned
    rfl

end Scan

namespace Point

/-- The tokens that have been scanned begin in front of the cursor, which stands where the last of
them ends. -/
structure IsPlaced (source : String) (point : Point) : Prop where
  isIn : point.cursor.IsIn source
  latest : point.SeesLatest
  closing : point.lookahead.closing = point.cursor.boundary
  openings : ∀ token ∈ point.scanned, token.opening.Precedes point.cursor.boundary

namespace IsPlaced

variable {source : String} {before after : Point}

theorem of_token {cursor last : Cursor} {next : Token} {consumedEnd : Position}
    {earlier : List Token} (inSource : cursor.IsIn source)
    (scanned : Scan.token cursor = .ok next last)
    (openings : ∀ token ∈ earlier, token.opening.Precedes cursor.boundary) :
    IsPlaced source ⟨last, next, consumedEnd, next :: earlier⟩ := by
  obtain ⟨gap, length, reads⟩ := Scan.reads_of_token scanned
  obtain ⟨follows, closing, lastIn⟩ := reads.follows inSource
  have forward : next.opening.Precedes last.boundary := closing ▸ follows.forward
  refine ⟨lastIn, rfl, closing, List.forall_mem_cons.mpr ⟨forward, ?_⟩⟩
  intro token member
  exact (openings token member).trans (follows.after.trans forward)

theorem advances (placed : before.IsPlaced source) (step : before.Advances after) :
    after.IsPlaced source := by
  obtain ⟨_, next, cursor, scanned, rfl⟩ := step
  exact .of_token placed.isIn scanned placed.openings

theorem rereads (placed : before.IsPlaced source) (step : before.Rereads after) :
    after.IsPlaced source := by
  obtain ⟨front, token, cursor, _, scanned, rfl⟩ := step
  obtain ⟨length, rereads⟩ := Scan.rereadsAs_of_regularExpression scanned
  obtain ⟨others, whole⟩ := List.head?_eq_some_iff.mp placed.latest
  have moved : before.cursor.boundary.Precedes cursor.boundary := by
    rw [rereads.moves]
    exact Cursor.precedes_pass _ _
  refine ⟨?_, rfl, ?_, List.forall_mem_cons.mpr ⟨?_, ?_⟩⟩
  · rw [rereads.moves]
    exact placed.isIn.pass
  · exact rereads.closing
  · rw [rereads.opening]
    exact (placed.openings _ (whole ▸ List.mem_cons_self)).trans moved
  · intro other member
    exact (placed.openings other (List.mem_of_mem_tail member)).trans moved

end IsPlaced

end Point

/-- Where the text begins that the scanner found faulty: at the slash of a regular expression, and
otherwise where the token ends that was scanned last. The first token of a text is looked for at its
opening. -/
def State.faultyFrom (opening : Boundary) (fault : Fault) (after : State) : Boundary :=
  if fault.cause.isOfRegularExpression then after.lookahead.opening
  else Token.lastClosing opening (Event.tokens after.events).reverse

/-- A text was refused for a fault, which was noticed at a place. -/
structure Fault.IsNoticedAt (source : String) (options : Options) (fault : Fault) (after : State)
    (place : Boundary) : Prop where
  position : fault.position = place.position
  /-- A fault of the grammar is noticed at the beginning of a token. -/
  token : fault.cause.category ≠ .lexical →
    ∃ token, (token ∈ after.consumed ∨ token = after.lookahead) ∧ token.opening = place
  /-- A malformed token is noticed where the scanner has been since the token before it. -/
  scanned : fault.cause.category = .lexical →
    ∃ start cursor : Cursor, start.IsIn source ∧
      start.boundary = after.faultyFrom (State.ofSource source options).opening.boundary fault ∧
      Scan.MovesOver start cursor ∧ cursor.boundary = place ∧ start.boundary.Precedes place
  /-- A malformed regular expression is noticed at its slash. -/
  slash : fault.cause.isOfRegularExpression = true →
    (Scan.slash? after.lookahead.lexeme).isSome = true ∧ after.lookahead.opening = place
  /-- The place is not behind the text that has been read. -/
  isRead : place.IsUpTo after.cursor.boundary
  inside : after.cursor.offset ≤ source.length

theorem Cause.lexical_of_isOfRegularExpression {cause : Cause}
    (expression : cause.isOfRegularExpression = true) : cause.category = .lexical := by
  cases cause with
  | unterminatedRegularExpression | invalidRegularExpressionFlags | invalidPattern => rfl
  | _ => cases expression

section Texts

variable {source : String} {options : Options} {fault : Fault} {after : State}

/-- A malformed token is noticed on the way of the scanner from the cursor at which it was looked
for. -/
theorem Fault.isNoticedAt_of_token {start : Cursor} (inSource : start.IsIn source)
    (begins : Token.lastClosing (State.ofSource source options).opening.boundary
      (Event.tokens after.events).reverse = start.boundary)
    (failed : Scan.token start = .error fault after.cursor) :
    ∃ place, fault.IsNoticedAt source options after place := by
  obtain ⟨lexical, notExpression⟩ := Scan.lexical_of_token failed
  obtain ⟨cursor, moved, position⟩ := Scan.movesOver_of_fault failed
  have stops : Scan.token.leaves start = after.cursor := by rw [Scan.leaves, failed]
  have stopsIn := Scan.isIn_leaves_token inSource
  rw [stops] at stopsIn
  refine ⟨cursor.boundary, position, absurd lexical, fun _ => ?_,
    fun expression => by simp [notExpression] at expression, stops ▸ moved.isUpTo,
    stopsIn.offset_le⟩
  refine ⟨start, cursor, inSource, ?_, moved, rfl, moved.precedes⟩
  rw [State.faultyFrom, if_neg (by simp [notExpression]), begins]

/-- A malformed regular expression is noticed at its slash. -/
theorem Fault.isNoticedAt_of_slash {point : Point} (placed : point.IsPlaced source)
    {front : List Char} {cursor : Cursor} (same : after.point = { point with cursor })
    (isSlash : Scan.slash? point.lookahead.lexeme = some front)
    (failed : Scan.regularExpression point.lookahead front point.cursor = .error fault cursor) :
    ∃ place, fault.IsNoticedAt source options after place := by
  obtain ⟨lexical, expression⟩ := Scan.lexical_of_regularExpression failed
  obtain rfl : after.cursor = cursor := congrArg Point.cursor same
  have lookahead : after.lookahead = point.lookahead := congrArg Point.lookahead same
  obtain ⟨others, whole⟩ := List.head?_eq_some_iff.mp placed.latest
  have behind := placed.openings _ (whole ▸ List.mem_cons_self)
  have stops : (Scan.regularExpression point.lookahead front).leaves point.cursor =
      after.cursor := by
    rw [Scan.leaves, failed]
  have moved : point.cursor.boundary.Precedes after.cursor.boundary := by
    rw [← stops, Scan.leaves_regularExpression]
    exact Cursor.precedes_pass _ _
  have stopsIn := Scan.isIn_leaves_regularExpression placed.isIn point.lookahead front
  rw [stops] at stopsIn
  refine ⟨point.lookahead.opening, Scan.position_of_regularExpression failed, absurd lexical,
    fun _ => ?_, fun _ => ?_, (behind.trans moved).isUpTo, stopsIn.offset_le⟩
  · -- A cursor could stand in front of the slash, and the scanner moves over it first of all.
    refine ⟨⟨source.toList.drop point.lookahead.start, point.lookahead.start,
      point.lookahead.span.start⟩, _, ⟨rfl, ?_⟩, ?_, .refl _, rfl, .inl rfl⟩
    · exact Nat.le_trans behind.offset_le placed.isIn.offset_le
    · rw [State.faultyFrom, if_pos expression, lookahead]
      rfl
  · rw [lookahead, isSlash]
    exact ⟨rfl, rfl⟩

/-- A fault of the grammar is noticed at a token that has been scanned. -/
theorem Fault.isNoticedAt_of_start (placed : after.point.IsPlaced source)
    (grammatical : fault.cause.category ≠ .lexical) (start : fault.position ∈ after.point.starts) :
    ∃ place, fault.IsNoticedAt source options after place := by
  obtain ⟨token, member, position⟩ := start
  have behind := placed.openings token member
  obtain ⟨others, whole⟩ := List.head?_eq_some_iff.mp placed.latest
  have whole : Event.tokens after.events = after.lookahead :: others := whole
  refine ⟨token.opening, position.symm, fun _ => ⟨token, ?_, rfl⟩,
    fun lexical => absurd lexical grammatical,
    fun expression => absurd (Cause.lexical_of_isOfRegularExpression expression) grammatical,
    behind.isUpTo, placed.isIn.offset_le⟩
  change token ∈ Event.tokens after.events at member
  rw [whole, List.mem_cons] at member
  rw [State.consumed, whole, List.tail_cons, List.mem_reverse]
  exact member.symm

/-- When statements are refused, the parse has come to a point from which it fails. A fault of the
grammar is at the beginning of a token that has been scanned up to there. -/
theorem exists_point_of_fault {budget : Nat} {state : State} (placed : state.point.IsPlaced source)
    (run : topLevel (.ofBudget budget) budget state = .error fault after)
    (possible : fault.cause ≠ .exhausted) :
    ∃ point : Point, point.IsPlaced source ∧ point.Fails fault after.point ∧
      (fault.cause.category ≠ .lexical → fault.position ∈ after.point.starts) := by
  have follows := follows_topLevel
    (σ := .unchanged state.options.allowReturnOutsideFunction (Point.IsPlaced source)
      Point.IsPlaced.advances Point.IsPlaced.rereads)
    (Nonterminals.follows_ofBudget (Nat.le_refl budget)) rfl (Nat.le_refl budget)
  have blames : (topLevel (.ofBudget budget) budget).Blames ∅ nowhere :=
    blames_topLevel (Nonterminals.blames_ofBudget budget) budget
  obtain ⟨point, reached, fails, -⟩ := follows.fails placed run possible
  have points := (blames.error placed.latest run).2
  exact ⟨point, reached, fails, fun grammatical => (points grammatical).resolve_left id⟩

/-- A text that is refused by the grammar is refused at the beginning of a token that has been
consumed or stands in the lookahead. One with a malformed token is refused at a place between the
end of the token before, or the slash of a regular expression, and the place where scanning stopped.
No fault lies behind the text that has been read. -/
theorem State.isNoticedAt_of_parse
    (refused : (ofSource source options).parse = (.error fault, after)) :
    ∃ place, fault.IsNoticedAt source options after place := by
  rcases exists_fault_of_parse refused with ⟨failed, none⟩ | ⟨token, cursor, scanned, run⟩
  · refine Fault.isNoticedAt_of_token isIn_opening ?_ failed
    rw [none]
    rfl
  · have begun : ((ofSource source options).begun token cursor).point.IsPlaced source :=
      .of_token isIn_opening scanned (by rintro _ ⟨⟩)
    have possible := possible_of_parse (congrArg Prod.fst refused)
    obtain ⟨point, placed, fails, points⟩ := exists_point_of_fault begun run possible
    generalize same : after.point = last at fails
    cases fails with
    | here grammatical =>
      exact Fault.isNoticedAt_of_start (same ▸ placed) grammatical (points grammatical)
    | token _ failed =>
      obtain ⟨others, whole⟩ := List.head?_eq_some_iff.mp placed.latest
      have tokens : Event.tokens after.events = point.lookahead :: others :=
        (congrArg Point.scanned same).trans whole
      obtain rfl : after.cursor = _ := congrArg Point.cursor same
      refine Fault.isNoticedAt_of_token placed.isIn ?_ failed
      rw [tokens, ← placed.closing]
      simp [Token.lastClosing]
    | regularExpression isSlash failed =>
      exact Fault.isNoticedAt_of_slash placed same isSlash failed

end Texts

/-- An operand in parentheses that is no target, a regular expression without an end, and a faulty
escape behind a comment. -/
theorem isNoticedAt_of_operand :
    (∃ fault after place, (State.ofSource "(a + b) = c" {}).parse = (.error fault, after) ∧
      fault.position = ⟨1, 1⟩ ∧ fault.IsNoticedAt "(a + b) = c" {} after place) ∧
    (∃ fault after place, (State.ofSource "a = /b" {}).parse = (.error fault, after) ∧
      fault.position = ⟨1, 4⟩ ∧ fault.IsNoticedAt "a = /b" {} after place) ∧
    ∃ fault after place, (State.ofSource "a /* b */ 'c\\xg'" {}).parse = (.error fault, after) ∧
      fault.position = ⟨1, 12⟩ ∧ fault.IsNoticedAt "a /* b */ 'c\\xg'" {} after place := by
  have noticed : ∀ {source : String} {position : Position},
      ((parse source {}).mapError Fault.position).map (fun _ => ()) = .error position →
      ∃ fault after place, (State.ofSource source {}).parse = (.error fault, after) ∧
        fault.position = position ∧ fault.IsNoticedAt source {} after place := by
    intro source position same
    cases result : parse source {} with
    | ok program =>
      rw [result] at same
      cases same
    | error fault =>
      rw [result] at same
      have run : (State.ofSource source {}).parse = (.error fault, _) := Prod.ext result rfl
      obtain ⟨place, here⟩ := State.isNoticedAt_of_parse run
      exact ⟨fault, _, place, run, Except.error.inj same, here⟩
  exact ⟨noticed (by decide +kernel), noticed (by decide +kernel), noticed (by decide +kernel)⟩

end EcmaScript
