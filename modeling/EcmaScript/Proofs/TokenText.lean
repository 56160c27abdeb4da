import EcmaScript.Proofs.Placement
import EcmaScript.Proofs.Trivia

/-!
# Tokens in their source text

A cursor that moves over a source text always has before it what remains of the text behind its
offset. So the text of a token is the part of the source between the offsets of the token, and this
is true of a regular expression too, which is put together from its slash and what comes after it.
-/

namespace EcmaScript

theorem sourceText_eq {source : String} {start stop : Nat} (le : start ≤ stop)
    (stopLe : stop ≤ source.length) :
    sourceText source start stop =
      String.ofList ((source.toList.drop start).take (stop - start)) := by
  unfold sourceText
  dsimp only
  rw [String.length_toList, Nat.min_eq_left stopLe, Nat.min_eq_left le]

/-- A part of a text that is cut in two. -/
theorem sourceText_append {source : String} {start middle stop : Nat} (left : start ≤ middle)
    (right : middle ≤ stop) (stopLe : stop ≤ source.length) :
    sourceText source start middle ++ sourceText source middle stop =
      sourceText source start stop := by
  rw [sourceText_eq left (by omega), sourceText_eq right stopLe, sourceText_eq (by omega) stopLe,
    ← String.ofList_append]
  have whole : stop - start = (middle - start) + (stop - middle) := by omega
  have behind : start + (middle - start) = middle := by omega
  rw [whole, List.take_add, List.drop_drop, behind]

/-- A cursor stands at its offset in a source text. -/
structure Cursor.IsIn (source : String) (cursor : Cursor) : Prop where
  rest : cursor.rest = source.toList.drop cursor.offset
  offset_le : cursor.offset ≤ source.length

/-- A token has the text between its offsets in a source text. -/
structure Token.IsIn (source : String) (token : Token) : Prop where
  le : token.start ≤ token.stop
  stop_le : token.stop ≤ source.length
  text : token.text = sourceText source token.start token.stop

namespace Cursor

variable {source : String} {cursor : Cursor} {walk : Position → List Char → Position} {count : Nat}

theorem offset_moveBy (enough : count ≤ cursor.rest.length) :
    (cursor.moveBy walk count).offset = cursor.offset + count := by
  simp only [moveBy, List.length_take, Nat.min_eq_left enough]

namespace IsIn

theorem atStart (source : String) : (Cursor.atStart source).IsIn source :=
  ⟨rfl, Nat.zero_le _⟩

theorem length_rest (inSource : cursor.IsIn source) :
    cursor.offset + cursor.rest.length = source.length := by
  rw [inSource.rest, List.length_drop, String.length_toList]
  have inside := inSource.offset_le
  omega

theorem moveBy (inSource : cursor.IsIn source) : (cursor.moveBy walk count).IsIn source := by
  have whole := inSource.length_rest
  constructor
  · by_cases enough : count ≤ cursor.rest.length
    · rw [offset_moveBy enough, ← List.drop_drop, ← inSource.rest]
      rfl
    · have short : cursor.rest.length ≤ count := by omega
      simp only [Cursor.moveBy]
      rw [List.take_of_length_le short, List.drop_of_length_le short, whole,
        ← String.length_toList, List.drop_length]
  · simp only [Cursor.moveBy, List.length_take]
    omega

theorem pass (inSource : cursor.IsIn source) : (cursor.pass count).IsIn source :=
  inSource.moveBy

theorem passHashbang (inSource : cursor.IsIn source) : cursor.passHashbang.IsIn source := by
  unfold Cursor.passHashbang
  split
  · exact inSource.pass
  · exact inSource

/-- The characters before a cursor are part of the source. -/
theorem text (inSource : cursor.IsIn source) (enough : count ≤ cursor.rest.length) :
    String.ofList (cursor.rest.take count) =
      sourceText source cursor.offset (cursor.offset + count) := by
  have whole := inSource.length_rest
  rw [sourceText_eq (by omega) (by omega), Nat.add_sub_cancel_left, inSource.rest]

end IsIn

end Cursor

namespace Scan

/-- A token is read at a cursor, with some trivia before it. -/
structure Reads (cursor : Cursor) (gap length : Nat) (token : Token) (after : Cursor) : Prop where
  trivia : Trivia.read cursor.rest = .success gap token.flags.lineBreak
  lexeme : ∃ flags, Lexeme.read (cursor.pass gap).rest = .success length (token.lexeme, flags)
  start : token.start = (cursor.pass gap).offset
  spanStart : token.span.start = (cursor.pass gap).position
  text : token.text = String.ofList ((cursor.pass gap).rest.take length)
  moves : after = (cursor.pass gap).moveBy (Lexeme.walk (cursor.pass gap).rest) length
  stop : token.stop = after.offset
  spanStop : token.span.stop = after.position

/-- A regular expression is read at a cursor, with its slash before it. -/
structure RereadsAs (cursor : Cursor) (slash : Token) (front : List Char) (length : Nat)
    (token : Token) (after : Cursor) : Prop where
  expression : RegularExpression.read front cursor.rest = .success length token.lexeme
  lineBreak : token.flags.lineBreak = slash.flags.lineBreak
  start : token.start = slash.start
  spanStart : token.span.start = slash.span.start
  text : token.text = slash.text ++ String.ofList (cursor.rest.take length)
  moves : after = cursor.pass length
  stop : token.stop = after.offset
  spanStop : token.span.stop = after.position

theorem reads_of_token {cursor after : Cursor} {next : Token}
    (scanned : token cursor = .ok next after) : ∃ gap length, Reads cursor gap length next after := by
  simp only [token, bind, EStateM.bind] at scanned
  split at scanned
  · rename_i lineBreak middle found
    unfold trivia at found
    split at found
    · rename_i gap _ read
      cases found
      unfold lexeme at scanned
      dsimp only at scanned
      split at scanned
      · rename_i length item flags inside
        cases scanned
        exact ⟨gap, length, read, ⟨flags, inside⟩, rfl, rfl, rfl, rfl, rfl, rfl⟩
      · cases scanned
    · cases found
  · cases scanned

theorem rereadsAs_of_regularExpression {cursor after : Cursor} {slash next : Token}
    {front : List Char} (scanned : regularExpression slash front cursor = .ok next after) :
    ∃ length, RereadsAs cursor slash front length next after := by
  unfold regularExpression at scanned
  split at scanned
  · rename_i length lexeme read
    cases scanned
    exact ⟨length, read, rfl, rfl, rfl, rfl, rfl, rfl, rfl⟩
  · cases scanned

variable {source : String} {cursor after : Cursor} {slash next : Token} {front : List Char}
  {gap length : Nat}

/-- A token is behind the cursor at which it is read, with its trivia in between. -/
theorem Reads.isIn (reads : Reads cursor gap length next after) (inSource : cursor.IsIn source) :
    next.IsIn source ∧ next.start = cursor.offset + gap ∧ next.stop = next.start + length ∧
      after.IsIn source := by
  have middle : (cursor.pass gap).IsIn source := inSource.pass
  have gapLe : gap ≤ cursor.rest.length := by
    have bound := Trivia.length_read_le cursor.rest
    rwa [reads.trivia] at bound
  have lengthLe : length ≤ (cursor.pass gap).rest.length := by
    obtain ⟨flags, read⟩ := reads.lexeme
    have bound := Lexeme.length_read_le (cursor.pass gap).rest
    rwa [read] at bound
  have whole := middle.length_rest
  have start : next.start = cursor.offset + gap := reads.start.trans (Cursor.offset_moveBy gapLe)
  have stop : next.stop = next.start + length := by
    rw [reads.stop, reads.moves, Cursor.offset_moveBy lengthLe, reads.start]
  refine ⟨⟨by omega, ?_, ?_⟩, start, stop, ?_⟩
  · rw [stop, reads.start]
    omega
  · rw [reads.text, middle.text lengthLe, ← reads.start, stop]
  · rw [reads.moves]
    exact middle.moveBy

/-- A regular expression has the text of its slash, which ends at the cursor, and some more. -/
theorem RereadsAs.isIn (rereads : RereadsAs cursor slash front length next after)
    (inSource : cursor.IsIn source) (slashIn : slash.IsIn source)
    (behind : cursor.offset = slash.stop) :
    next.IsIn source ∧ next.stop = slash.stop + length ∧ after.IsIn source := by
  have enough : length ≤ cursor.rest.length := by
    have bound := RegularExpression.length_read_le front cursor.rest
    rwa [rereads.expression] at bound
  have whole := inSource.length_rest
  have le := slashIn.le
  have stop : next.stop = slash.stop + length := by
    rw [rereads.stop, rereads.moves, ← behind]
    exact Cursor.offset_moveBy enough
  refine ⟨⟨?_, ?_, ?_⟩, stop, ?_⟩
  · rw [rereads.start]
    omega
  · omega
  · rw [rereads.text, slashIn.text, inSource.text enough, rereads.start, stop, behind,
      sourceText_append le (by omega) (by omega)]
  · rw [rereads.moves]
    exact inSource.pass

end Scan

namespace Point

/-- The lookahead has the text between its offsets, and the cursor stands at its end. -/
structure IsIn (source : String) (point : Point) : Prop where
  token : point.lookahead.IsIn source
  cursor : point.cursor.IsIn source
  offset : point.cursor.offset = point.lookahead.stop

variable {source : String} {before after : Point}

theorem Advances.isIn (advances : before.Advances after) (inSource : before.IsIn source) :
    after.IsIn source := by
  obtain ⟨_, next, cursor, scanned, rfl⟩ := advances
  obtain ⟨gap, length, reads⟩ := Scan.reads_of_token scanned
  obtain ⟨token, _, _, cursor⟩ := reads.isIn inSource.cursor
  exact ⟨token, cursor, reads.stop.symm⟩

theorem Rereads.isIn (rereads : before.Rereads after) (inSource : before.IsIn source) :
    after.IsIn source := by
  obtain ⟨front, token, cursor, _, scanned, rfl⟩ := rereads
  obtain ⟨length, rereadsAs⟩ := Scan.rereadsAs_of_regularExpression scanned
  obtain ⟨token, _, cursor⟩ := rereadsAs.isIn inSource.cursor inSource.token inSource.offset
  exact ⟨token, cursor, rereadsAs.stop.symm⟩

/-- All tokens that are consumed have the text between their offsets. -/
theorem Passes.isIn {tokens : List Token} (passes : before.Passes tokens after)
    (inSource : before.IsIn source) : after.IsIn source ∧ ∀ token ∈ tokens, token.IsIn source := by
  induction passes with
  | none => exact ⟨inSource, by simp⟩
  | advance step _ ih =>
    obtain ⟨last, others⟩ := ih (step.isIn inSource)
    exact ⟨last, List.forall_mem_cons.mpr ⟨inSource.token, others⟩⟩
  | reread again step _ ih =>
    have between := again.isIn inSource
    obtain ⟨last, others⟩ := ih (step.isIn between)
    exact ⟨last, List.forall_mem_cons.mpr ⟨between.token, others⟩⟩

end Point

end EcmaScript
