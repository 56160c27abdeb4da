import EcmaScript.Proofs.LexemeText
import EcmaScript.Proofs.LexerPositions

/-!
# Lines that string literals count

A string literal counts a line for every line terminator that it escapes. It may contain a line or
paragraph separator that it does not escape, and for such a one it counts none: the line is too
small by one behind it, there and for all tokens behind the literal. That is the only way in which a
token gets a wrong place.
-/

namespace EcmaScript

/-- The number of line and paragraph separators in some text of a string literal that are not
escaped. -/
def rawSeparators : List Char → Nat
  | '\\' :: '\r' :: '\n' :: rest => rawSeparators rest
  | '\\' :: _ :: rest => rawSeparators rest
  | char :: rest => rawSeparators rest + if isSeparator char then 1 else 0
  | [] => 0

theorem rawSeparators_eq_zero {text : List Char} :
    rawSeparators text = 0 ↔ hasUnescaped isSeparator text = false := by
  fun_induction rawSeparators text with
  | case1 rest ih => rw [ih, hasUnescaped]
  | case2 char rest alone ih => rw [ih, hasUnescaped.eq_2 _ _ _ alone]
  | case3 char rest notPair notEscape ih =>
    rw [hasUnescaped.eq_3 _ _ _ notPair notEscape, Bool.or_eq_false_iff, ← ih]
    cases isSeparator char <;> simp
  | case4 => exact iff_of_true rfl rfl

namespace Position

variable {text : List Char}

/-- The lines of a literal and the separators that it does not escape are all of its line
terminators. -/
theorem line_afterLiteral (position : Position)
    (escaped : hasUnescaped isNewline text = false) :
    (position.afterLiteral text).line + rawSeparators text =
      position.line + lineTerminators text := by
  have backslash : ∀ rest, lineTerminators ('\\' :: rest) = lineTerminators rest := fun rest => by
    rw [lineTerminators.eq_2 _ _ (fun _ notReturn => absurd notReturn (by decide)),
      if_neg (by decide), Nat.add_zero]
  fun_induction afterLiteral position text with
  | case1 => rfl
  | case2 position rest ih =>
    rw [hasUnescaped] at escaped
    rw [rawSeparators, ih escaped, backslash, lineTerminators, nextLine, Nat.add_assoc,
      Nat.add_comm 1]
  | case3 position char rest alone terminator ih =>
    rw [hasUnescaped.eq_2 _ _ _ alone] at escaped
    rw [rawSeparators.eq_2 _ _ alone, ih escaped, backslash, lineTerminators.eq_2 _ _ alone,
      if_pos terminator, nextLine, Nat.add_assoc, Nat.add_comm 1]
  | case4 position char rest alone inLine ih =>
    rw [hasUnescaped.eq_2 _ _ _ alone] at escaped
    rw [rawSeparators.eq_2 _ _ alone, ih escaped, backslash, lineTerminators.eq_2 _ _ alone,
      if_neg inLine]
    rfl
  | case5 position char rest notPair notEscape ih =>
    rw [hasUnescaped.eq_3 _ _ _ notPair notEscape, Bool.or_eq_false_iff] at escaped
    have alone : ∀ others, char = '\r' → rest = '\n' :: others → False := by
      rintro _ rfl _
      cases escaped.1
    have later := ih escaped.2
    rw [rawSeparators.eq_3 _ _ notPair notEscape, lineTerminators.eq_2 _ _ alone,
      isLineTerminator_eq, escaped.1, Bool.false_or, ← Nat.add_assoc, ← Nat.add_assoc, later]
    rfl

/-- A literal counts its lines as any other text does just when it escapes all separators. -/
theorem afterLiteral_eq_after_iff (position : Position)
    (escaped : hasUnescaped isNewline text = false) :
    position.afterLiteral text = position.after text ↔ rawSeparators text = 0 := by
  constructor
  · intro same
    have counted := line_afterLiteral position escaped
    rw [same, line_after] at counted
    omega
  · intro none
    apply afterLiteral_eq_after
    rw [funext isLineTerminator_eq, hasUnescaped_or, escaped, rawSeparators_eq_zero.mp none]
    rfl

end Position

/-- A token goes over as many lines as its text has line terminators, and ends as many characters
behind the last of them as its text does. -/
structure Token.CountsLines (source : String) (token : Token) : Prop where
  line : token.span.stop.line =
    token.span.start.line + lineTerminators (sourceText source token.start token.stop).toList
  column : (sourceText source token.start token.stop).toList.any isLineTerminator = true →
    token.span.stop.column = (lastLine (sourceText source token.start token.stop).toList).length

namespace Lexeme

/-- A string literal is in quotes, and escapes all newlines. -/
theorem escapes_of_string {text : List Char} {length : Nat} {value : String} {flags : Flags}
    (found : read text = .success length (.string value, flags)) :
    walk text = Position.afterLiteral ∧ hasUnescaped isNewline (text.take length) = false := by
  unfold read at found
  split at found
  · cases found
  · rename_i char rest
    split at found
    · rename_i isQuote
      obtain ⟨count, same, escapes⟩ := StringLiteral.escapes_readFrom isQuote 1 [] {} rest
      cases read : StringLiteral.read char rest with
      | failure => simp [read, Reading.map] at found
      | success further value =>
        rw [read] at found
        cases found
        rw [← StringLiteral.read, read, Nat.add_comm] at same
        cases same
        refine ⟨if_pos (by simpa using isQuote), ?_⟩
        rw [List.take_succ_cons]
        rcases isQuote with rfl | rfl <;> exact escapes.escaped
    · split at found
      · cases read : NumericLiteral.read (char :: rest) <;> simp [read, Reading.map] at found
      · split at found
        · obtain ⟨_, ⟨⟩⟩ | ⟨_, ⟨⟩, _⟩ := Name.eq_of_read found
        · split at found <;> cases found

/-- What begins with a quote is a string literal. -/
theorem walk_of_not_string {text : List Char} {length : Nat} {lexeme : Lexeme} {flags : Flags}
    (found : read text = .success length (lexeme, flags))
    (notString : ∀ value, lexeme ≠ .string value) : walk text = Position.after := by
  rw [walk, if_neg]
  intro quoted
  cases text with
  | nil => simp at quoted
  | cons char rest =>
    rw [read, if_pos (by simpa using quoted)] at found
    cases inside : StringLiteral.read char rest with
    | failure => simp [inside, Reading.map] at found
    | success further value =>
      rw [inside] at found
      cases found
      exact notString value.1 rfl

end Lexeme

namespace Scan

variable {source : String} {cursor after : Cursor} {next : Token} {value : String}

theorem Reads.toList_sourceText {gap length : Nat} (reads : Reads cursor gap length next after)
    (inSource : cursor.IsIn source) :
    (sourceText source next.start next.stop).toList = (cursor.pass gap).rest.take length := by
  rw [← (reads.isIn inSource).1.text, reads.text, String.toList_ofList]

/-- Behind a token a cursor is at the position of its offset if the token has gone over the lines of
its text. -/
theorem Reads.isLocated_iff {gap length : Nat} (reads : Reads cursor gap length next after)
    (located : cursor.IsLocated source) :
    (after.IsLocated source ↔ next.IsLocated source) ∧
      (next.IsLocated source ↔
        next.span.stop =
          next.span.start.after (sourceText source next.start next.stop).toList) := by
  obtain ⟨flags, found⟩ := reads.lexeme
  have enough := Lexeme.length_read_le (cursor.pass gap).rest
  have pairs := Lexeme.keepsPairs_read (Trivia.eq_of_read reads.trivia).2.1
  rw [← Cursor.rest_pass] at pairs
  rw [found] at enough pairs
  dsimp only [Reading.length] at enough pairs
  have middle := located.passTrivia reads.trivia
  have there := middle.pass enough pairs
  have offset : ((cursor.pass gap).pass length).offset = after.offset := by
    rw [reads.moves]
    rfl
  have start : next.span.start = .ofOffset source next.start := by
    rw [reads.spanStart, reads.start, middle.position]
  have stop : next.span.start.after (sourceText source next.start next.stop).toList =
      .ofOffset source after.offset := by
    rw [reads.toList_sourceText located.isIn, reads.spanStart, ← offset, ← there.position]
    rfl
  have places : next.IsLocated source ↔ next.span.stop = .ofOffset source after.offset := by
    rw [Token.IsLocated, ← start, ← reads.stop]
    exact ⟨congrArg Span.stop, fun same => congrArg (Span.mk next.span.start) same⟩
  rw [stop, places]
  refine ⟨?_, Iff.rfl⟩
  rw [reads.spanStop]
  refine ⟨fun afterLocated => afterLocated.position, fun position => ⟨?_, position, ?_⟩⟩
  · rw [reads.moves]
    exact located.isIn.pass.moveBy
  · rw [← offset]
    exact there.keepsPairs

/-- A string literal is read by the rule for literals, and escapes all newlines. -/
theorem Reads.of_string {gap length : Nat} (reads : Reads cursor gap length next after)
    (inSource : cursor.IsIn source) (isString : next.lexeme = .string value) :
    next.span.stop =
        next.span.start.afterLiteral (sourceText source next.start next.stop).toList ∧
      hasUnescaped isNewline (sourceText source next.start next.stop).toList = false := by
  obtain ⟨flags, found⟩ := reads.lexeme
  rw [isString] at found
  obtain ⟨walk, escaped⟩ := Lexeme.escapes_of_string found
  rw [reads.toList_sourceText inSource]
  refine ⟨?_, escaped⟩
  rw [reads.spanStop, reads.spanStart, reads.moves, walk]
  rfl

/-- A token is at the positions of its offsets, where the cursor before it is, just when it is no
string literal with a separator that is not escaped. So is the cursor behind it. -/
theorem isLocated_token_iff (located : cursor.IsLocated source)
    (scanned : token cursor = .ok next after) :
    (after.IsLocated source ↔ next.IsLocated source) ∧
      (next.IsLocated source ↔ ∀ value, next.lexeme = .string value →
        rawSeparators (sourceText source next.start next.stop).toList = 0) := by
  obtain ⟨gap, length, reads⟩ := reads_of_token scanned
  obtain ⟨behind, places⟩ := reads.isLocated_iff located
  refine ⟨behind, places.trans ?_⟩
  by_cases isString : ∃ value, next.lexeme = .string value
  · obtain ⟨value, isString⟩ := isString
    obtain ⟨stop, escaped⟩ := reads.of_string located.isIn isString
    rw [stop, Position.afterLiteral_eq_after_iff _ escaped]
    exact ⟨fun none _ _ => none, fun none => none value isString⟩
  · have notString := not_exists.mp isString
    obtain ⟨flags, found⟩ := reads.lexeme
    have walk := Lexeme.walk_of_not_string found notString
    refine iff_of_true ?_ fun value same => absurd same (notString value)
    rw [reads.spanStop, reads.spanStart, reads.moves, walk, reads.toList_sourceText located.isIn]
    rfl

/-- A string literal goes over as many lines as its text has line terminators, but for the
separators that it does not escape. Just when it has none of those, its end is where it should be,
and a cursor that is at the position of its offset is so behind it. -/
theorem lines_of_string (inSource : cursor.IsIn source) (scanned : token cursor = .ok next after)
    (isString : next.lexeme = .string value) :
    let text := (sourceText source next.start next.stop).toList
    next.span.stop.line + rawSeparators text = next.span.start.line + lineTerminators text ∧
      (next.CountsLines source ↔ rawSeparators text = 0) ∧
      (cursor.IsLocated source → (after.IsLocated source ↔ rawSeparators text = 0)) := by
  obtain ⟨gap, length, reads⟩ := reads_of_token scanned
  obtain ⟨stop, escaped⟩ := reads.of_string inSource isString
  have counted := Position.line_afterLiteral next.span.start escaped
  rw [← stop] at counted
  refine ⟨counted, ⟨fun counts => ?_, fun none => ?_⟩, fun located => ?_⟩
  · have line := counts.line
    omega
  · have place := stop.trans ((Position.afterLiteral_eq_after_iff _ escaped).mpr none)
    exact ⟨by rw [place, Position.line_after], fun some => by
      rw [place, Position.column_after, if_pos some]⟩
  · obtain ⟨behind, places⟩ := isLocated_token_iff located scanned
    rw [behind, places]
    exact ⟨fun none => none value isString, fun none _ _ => none⟩

/-- The token that is found, if any. -/
def found? : EStateM.Result Fault Cursor Token → Option Token
  | .ok next _ => some next
  | .error .. => none

theorem exists_of_found? {result : EStateM.Result Fault Cursor Token}
    (found : found? result = some next) : ∃ after, result = .ok next after := by
  cases result with
  | ok token after =>
    cases found
    exact ⟨after, rfl⟩
  | error fault after => cases found

/-- A carriage return with its line feed, escaped, is one line. -/
theorem lines_of_continuation :
    ∃ next after, token (.atStart "'a\\\r\nb' x") = .ok next after ∧
      next.lexeme = .string "ab" ∧ next.span = ⟨⟨1, 0⟩, ⟨2, 2⟩⟩ ∧
      next.CountsLines "'a\\\r\nb' x" ∧ after.IsLocated "'a\\\r\nb' x" := by
  have found : found? (token (.atStart "'a\\\r\nb' x")) = some
      { lexeme := .string "ab", flags := {}, span := ⟨⟨1, 0⟩, ⟨2, 2⟩⟩, start := 0, stop := 7
        text := "'a\\\r\nb'" } := by
    decide +kernel
  obtain ⟨after, scanned⟩ := exists_of_found? found
  have start := Cursor.IsLocated.atStart "'a\\\r\nb' x"
  have none : rawSeparators (sourceText "'a\\\r\nb' x" 0 7).toList = 0 := by decide +kernel
  obtain ⟨-, counts, located⟩ := lines_of_string start.isIn scanned rfl
  exact ⟨_, _, scanned, rfl, rfl, counts.mpr none, (located start).mpr none⟩

/-- Tokens that are scanned one after the other are at the positions of their offsets, all of them,
just when no string literal among them has a separator that is not escaped. -/
theorem isLocated_tokens_iff {bound : Nat} {scanned : List Token}
    (located : cursor.IsLocated source) (run : tokens bound cursor = .ok scanned after) :
    (∀ token ∈ scanned, token.IsLocated source) ↔
      ∀ token ∈ scanned, ∀ value, token.lexeme = .string value →
        rawSeparators (sourceText source token.start token.stop).toList = 0 := by
  induction bound generalizing cursor scanned with
  | zero =>
    cases run
    simp
  | succ bound ih =>
    rw [tokens] at run
    simp only [bind, EStateM.bind] at run
    split at run
    · rename_i first middle found
      obtain ⟨behind, places⟩ := isLocated_token_iff located found
      split at run
      · cases run
        simpa using places
      · unfold EStateM.bind at run
        split at run
        · rename_i others _ rest
          cases run
          rw [List.forall_mem_cons, List.forall_mem_cons]
          constructor
          · rintro ⟨here, later⟩
            exact ⟨places.mp here, (ih (behind.mpr here) rest).mp later⟩
          · rintro ⟨none, later⟩
            exact ⟨places.mpr none, (ih (behind.mpr (places.mpr none)) rest).mpr later⟩
        · cases run
    · cases run

end Scan

/-- Every token of a text has the line and column of its place just when no string literal has a
separator that is not escaped. -/
theorem isLocated_tokenize_iff {source : String} {tokens : List Token}
    (scanned : tokenize source = .ok tokens) :
    (∀ token ∈ tokens, token.IsLocated source) ↔
      ∀ token ∈ tokens, ∀ value, token.lexeme = .string value →
        rawSeparators (sourceText source token.start token.stop).toList = 0 := by
  unfold tokenize at scanned
  split at scanned
  · rename_i run
    cases scanned
    exact Scan.isLocated_tokens_iff (.atStart source) run
  · cases scanned

/-- A literal with a line separator that is not escaped ends on its first line, and the name behind
it is one line too high. -/
theorem tokenize_lineSeparator :
    ∃ literal name ending, tokenize "'a\u2028b' x" = .ok [literal, name, ending] ∧
      literal.lexeme = .string "a\u2028b" ∧ literal.span = ⟨⟨1, 0⟩, ⟨1, 5⟩⟩ ∧
      ¬literal.CountsLines "'a\u2028b' x" ∧ name.span.start = ⟨1, 6⟩ ∧
      Position.ofOffset "'a\u2028b' x" name.start = ⟨2, 3⟩ := by
  have scanned : tokenize "'a\u2028b' x" = .ok
      [{ lexeme := .string "a\u2028b", flags := {}, span := ⟨⟨1, 0⟩, ⟨1, 5⟩⟩, start := 0, stop := 5
         text := "'a\u2028b'" },
       { lexeme := .identifier "x", flags := {}, span := ⟨⟨1, 6⟩, ⟨1, 7⟩⟩, start := 6, stop := 7
         text := "x" },
       { lexeme := .endOfFile, flags := {}, span := ⟨⟨1, 7⟩, ⟨1, 7⟩⟩, start := 7, stop := 7
         text := "" }] := by
    decide +kernel
  exact ⟨_, _, _, scanned, rfl, rfl, fun counts => absurd counts.line (by decide +kernel), rfl,
    by decide +kernel⟩

end EcmaScript
