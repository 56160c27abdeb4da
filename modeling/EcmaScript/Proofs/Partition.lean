import EcmaScript.Proofs.LexemeText
import EcmaScript.Proofs.TokenText
import Mathlib.Data.List.Pairwise

/-!
# Tokens partition their source

From the start of a text to its end the scanner reads one token after the other, and a slash that it
has just read may be read again as a regular expression. The tokens then lie in the text in their
order, what is between them is trivia, and the end of the text is where the last of them is. The
positions of the tokens are ordered as their offsets are.
-/

namespace EcmaScript

/-- Tokens are scanned from a cursor up to the end of the text, and some slashes are read again as
regular expressions, which replace them. -/
inductive Scan.Runs : Cursor → List Token → Prop where
  | ended {cursor after : Cursor} {last : Token} : Scan.token cursor = .ok last after →
      last.lexeme = .endOfFile → Runs cursor [last]
  | next {cursor after : Cursor} {token : Token} {tokens : List Token} :
      Scan.token cursor = .ok token after → token.lexeme ≠ .endOfFile → Runs after tokens →
      Runs cursor (token :: tokens)
  | reread {cursor behind after : Cursor} {slash token : Token} {front : List Char}
      {tokens : List Token} :
      Scan.token cursor = .ok slash behind → Scan.slash? slash.lexeme = some front →
      Scan.regularExpression slash front behind = .ok token after → Runs after tokens →
      Runs cursor (token :: tokens)

/-- The tokens of a run that is given by its choices: for each token but the last, whether it is a
slash that is read again. -/
def Scan.run? (cursor : Cursor) : List Bool → Option (List Token)
  | [] =>
    match token cursor with
    | .ok last _ => if last.lexeme = .endOfFile then some [last] else none
    | .error _ _ => none
  | again :: choices =>
    match token cursor with
    | .ok next after =>
      if next.lexeme = .endOfFile then none
      else if again then
        match slash? next.lexeme with
        | some front =>
          match regularExpression next front after with
          | .ok expression behind => (run? behind choices).map (expression :: ·)
          | .error _ _ => none
        | none => none
      else (run? after choices).map (next :: ·)
    | .error _ _ => none

/-- The choices of a run determine it, and there are some for every run. -/
theorem Scan.runs_iff {cursor : Cursor} {tokens : List Token} :
    Runs cursor tokens ↔ ∃ choices, run? cursor choices = some tokens := by
  constructor
  · intro runs
    induction runs with
    | ended scanned ended =>
      refine ⟨[], ?_⟩
      rw [run?, scanned]
      exact if_pos ended
    | next scanned inside _ ih =>
      obtain ⟨choices, same⟩ := ih
      refine ⟨false :: choices, ?_⟩
      simp [run?, scanned, inside, same]
    | reread scanned isSlash rescanned _ ih =>
      obtain ⟨choices, same⟩ := ih
      refine ⟨true :: choices, ?_⟩
      rw [run?, scanned]
      dsimp only
      rw [if_neg (by rintro ended; simp [ended, slash?] at isSlash), if_pos rfl, isSlash]
      simp [rescanned, same]
  · rintro ⟨choices, same⟩
    induction choices generalizing cursor tokens with
    | nil =>
      unfold run? at same
      split at same
      · rename_i scanned
        split at same
        · rename_i ended
          cases same
          exact .ended scanned ended
        · contradiction
      · contradiction
    | cons again choices ih =>
      unfold run? at same
      split at same
      · rename_i scanned
        split at same
        · contradiction
        · rename_i inside
          split at same
          · split at same
            · rename_i isSlash
              split at same
              · rename_i rescanned
                obtain ⟨others, rest, rfl⟩ := Option.map_eq_some_iff.mp same
                exact .reread scanned isSlash rescanned (ih rest)
              · contradiction
            · contradiction
          · obtain ⟨others, rest, rfl⟩ := Option.map_eq_some_iff.mp same
            exact .next scanned inside (ih rest)
      · contradiction

/-- A place between two characters of a text: its offset and its position. -/
structure Boundary where
  offset : Nat
  position : Position
  deriving DecidableEq, Repr

namespace Boundary

/-- The start of a text. -/
def first : Boundary := ⟨0, .first⟩

/-- A boundary is the same as another one, or behind it in the text and on the page. -/
def Precedes (left right : Boundary) : Prop :=
  left = right ∨ (left.offset < right.offset ∧ left.position < right.position)

theorem Precedes.offset_le {left right : Boundary} (precedes : left.Precedes right) :
    left.offset ≤ right.offset := by
  rcases precedes with rfl | ⟨offset, _⟩
  · exact Nat.le_refl _
  · exact Nat.le_of_lt offset

theorem Precedes.trans {first second third : Boundary} (left : first.Precedes second)
    (right : second.Precedes third) : first.Precedes third := by
  rcases left with rfl | left
  · exact right
  · rcases right with rfl | right
    · exact .inr left
    · exact .inr ⟨Nat.lt_trans left.1 right.1,
        Position.lt_of_lt_of_le left.2 (Position.le_of_lt right.2)⟩

/-- One of two boundaries precedes the other just when offsets and positions agree on it. -/
theorem Precedes.le_iff {left right : Boundary} (precedes : left.Precedes right) :
    (left.offset ≤ right.offset ↔ left.position ≤ right.position) ∧
      (right.offset ≤ left.offset ↔ right.position ≤ left.position) := by
  rcases precedes with rfl | ⟨offset, position⟩
  · simp
  · constructor
    · exact ⟨fun _ => Position.le_of_lt position, fun _ => Nat.le_of_lt offset⟩
    · constructor
      · intro other
        exact absurd offset (Nat.not_lt.mpr other)
      · intro other
        exact absurd (Position.lt_of_lt_of_le position other) (Position.lt_irrefl _)

end Boundary

namespace Token

/-- Where a token begins. -/
def opening (token : Token) : Boundary := ⟨token.start, token.span.start⟩

/-- Where a token ends. -/
def closing (token : Token) : Boundary := ⟨token.stop, token.span.stop⟩

/-- Where some tokens end, the first of which come after a boundary. -/
def lastClosing (before : Boundary) (tokens : List Token) : Boundary :=
  (tokens.getLast?.map closing).getD before

/-- The boundaries of some tokens, in the order of the tokens. -/
def boundaries (tokens : List Token) : List Boundary :=
  tokens.flatMap fun token => [token.opening, token.closing]

/-- The text between a boundary and a token. -/
def gap (source : String) (before : Boundary) (token : Token) : List Char :=
  (sourceText source before.offset token.start).toList

/-- The texts of some tokens, the first of which come after a boundary, with what is between them.
-/
def pieces (source : String) (before : Boundary) : List Token → List Char
  | [] => []
  | token :: tokens =>
    token.gap source before ++ token.text.toList ++ pieces source token.closing tokens

/-- A token comes next after a boundary in a source text. -/
structure Follows (source : String) (before : Boundary) (token : Token) : Prop where
  isIn : token.IsIn source
  after : before.Precedes token.opening
  forward : token.opening.Precedes token.closing
  trivia : IsTrivia (source.toList.drop token.start) (token.gap source before)
  lineBreak : token.flags.lineBreak = true ↔
    ∃ char ∈ token.gap source before, isLineTerminator char = true
  line : token.flags.lineBreak = true ↔ before.position.line < token.span.start.line
  wide : token.lexeme ≠ .endOfFile → token.start < token.stop
  ended : token.lexeme = .endOfFile → token.start = source.length ∧ token.stop = source.length
  symbol : ∀ symbol, token.lexeme = .symbol symbol → token.text = symbol.text

/-- A token and what is before it are followed by the text from its end on. -/
theorem Follows.pieces {source : String} {before : Boundary} {token : Token}
    (follows : token.Follows source before) :
    token.gap source before ++ token.text.toList ++ source.toList.drop token.stop =
      source.toList.drop before.offset := by
  have behind : before.offset ≤ token.start := follows.after.offset_le
  have ordered := follows.isIn.le
  have inside := follows.isIn.stop_le
  have whole : token.stop = before.offset + (token.stop - before.offset) := by omega
  rw [gap, follows.isIn.text, ← String.toList_append, sourceText_append behind ordered inside,
    sourceText_eq (by omega) inside, String.toList_ofList]
  nth_rewrite 2 [whole]
  rw [← List.drop_drop, List.take_append_drop]

/-- Tokens come one after the other behind a boundary, and the last one is the end of the text. -/
inductive Tiles (source : String) : Boundary → List Token → Prop where
  | ended {before : Boundary} {last : Token} : last.Follows source before →
      last.lexeme = .endOfFile → Tiles source before [last]
  | next {before : Boundary} {token : Token} {tokens : List Token} :
      token.Follows source before → token.lexeme ≠ .endOfFile →
      Tiles source token.closing tokens → Tiles source before (token :: tokens)

/-- Some tokens are a partition of a source text. -/
structure Partition (source : String) (tokens : List Token) : Prop where
  /-- The tokens do not overlap. -/
  order : tokens.Pairwise fun left right => left.stop ≤ right.start
  /-- Just the last one is the end of the text. -/
  ends : ∃ front last, tokens = front ++ [last] ∧ last.lexeme = .endOfFile ∧
    ∀ token ∈ front, token.lexeme ≠ .endOfFile
  /-- Each of them comes next after the one before it, and the first one after the start. -/
  follows : ∀ front token back, tokens = front ++ token :: back →
    token.Follows source (lastClosing .first front)
  /-- Together with what is between them they make up the text. -/
  whole : pieces source .first tokens = source.toList
  /-- Offsets and positions agree on the order of the boundaries. -/
  boundaries : ∀ left ∈ boundaries tokens, ∀ right ∈ boundaries tokens,
    left.offset ≤ right.offset ↔ left.position ≤ right.position

namespace Tiles

variable {source : String} {before : Boundary} {tokens : List Token}

theorem follows (tiles : Tiles source before tokens) {front back : List Token} {token : Token}
    (split : tokens = front ++ token :: back) :
    token.Follows source (lastClosing before front) := by
  induction tiles generalizing front with
  | @ended before last follows _ =>
    cases front with
    | nil =>
      cases split
      exact follows
    | cons other others => simp at split
  | @next before first tokens follows _ _ ih =>
    cases front with
    | nil =>
      cases split
      exact follows
    | cons other others =>
      cases split
      have rest := ih rfl
      have same : lastClosing before (first :: others) = lastClosing first.closing others := by
        simp [lastClosing, List.getLast?_cons]
      rwa [same]

theorem ends (tiles : Tiles source before tokens) :
    ∃ front last, tokens = front ++ [last] ∧ last.lexeme = .endOfFile ∧
      ∀ token ∈ front, token.lexeme ≠ .endOfFile := by
  induction tiles with
  | @ended before last _ ended => exact ⟨[], last, rfl, ended, by simp⟩
  | @next before token tokens _ inside _ ih =>
    obtain ⟨front, last, rfl, ended, others⟩ := ih
    exact ⟨token :: front, last, rfl, ended, List.forall_mem_cons.mpr ⟨inside, others⟩⟩

/-- Every boundary precedes those behind it. -/
theorem precedes (tiles : Tiles source before tokens) :
    (before :: boundaries tokens).Pairwise Boundary.Precedes := by
  have chain : (before :: boundaries tokens).IsChain Boundary.Precedes := by
    induction tiles with
    | ended follows => exact .cons_cons follows.after (.cons_cons follows.forward (.singleton _))
    | next follows _ _ ih => exact .cons_cons follows.after (.cons_cons follows.forward ih)
  have transitive : Trans Boundary.Precedes Boundary.Precedes Boundary.Precedes := ⟨.trans⟩
  exact List.isChain_iff_pairwise.mp chain

theorem order (tiles : Tiles source before tokens) :
    tokens.Pairwise fun left right => left.stop ≤ right.start := by
  induction tiles with
  | ended => exact List.pairwise_singleton _ _
  | @next before token tokens _ _ rest ih =>
    refine List.pairwise_cons.mpr ⟨?_, ih⟩
    intro other member
    have behind : other.opening ∈ boundaries tokens :=
      List.mem_flatMap.mpr ⟨other, member, by simp⟩
    exact ((List.pairwise_cons.mp rest.precedes).1 _ behind).offset_le

theorem whole (tiles : Tiles source before tokens) :
    pieces source before tokens = source.toList.drop before.offset := by
  induction tiles with
  | @ended before last follows ended =>
    have atEnd : source.toList.drop last.stop = [] := by
      rw [(follows.ended ended).2, ← String.length_toList, List.drop_length]
    rw [← follows.pieces, atEnd]
    rfl
  | next follows _ _ ih =>
    rw [← follows.pieces, pieces, ih]
    rfl

theorem isPartition (tiles : Tiles source .first tokens) : Partition source tokens where
  order := tiles.order
  ends := tiles.ends
  follows _ _ _ split := tiles.follows split
  whole := tiles.whole
  boundaries := by
    intro left leftMember right rightMember
    have ordered := (List.pairwise_cons.mp tiles.precedes).2
    have forward := ordered.imp fun precedes => precedes.le_iff.1
    have backward := ordered.imp fun precedes => precedes.le_iff.2
    exact forward.forall_of_forall_of_flip (by simp) backward leftMember rightMember

end Tiles

end Token

/-- The boundary that a cursor is at. -/
def Cursor.boundary (cursor : Cursor) : Boundary := ⟨cursor.offset, cursor.position⟩

/-- A cursor that moves over some text comes to a boundary behind. -/
theorem Cursor.precedes_moveBy {cursor : Cursor} {walk : Position → List Char → Position}
    {count : Nat} (stays : walk cursor.position [] = cursor.position)
    (moves : ∀ passed, passed ≠ [] → cursor.position < walk cursor.position passed) :
    cursor.boundary.Precedes (cursor.moveBy walk count).boundary := by
  cases passed : cursor.rest.take count with
  | nil =>
    left
    simp only [boundary, moveBy, passed, stays, List.length_nil, Nat.add_zero]
  | cons char others =>
    right
    simp only [boundary, moveBy, passed, List.length_cons]
    exact ⟨by omega, moves _ (by simp)⟩

theorem Cursor.precedes_pass (cursor : Cursor) (count : Nat) :
    cursor.boundary.Precedes (cursor.pass count).boundary :=
  precedes_moveBy (Position.after_nil _) fun _ => Position.lt_after _

@[simp] theorem Lexeme.walk_nil (text : List Char) (position : Position) :
    walk text position [] = position := by
  unfold walk
  split
  · rw [Position.afterLiteral]
  · rw [Position.after]

theorem Cursor.precedes_walk (cursor : Cursor) (text : List Char) (count : Nat) :
    cursor.boundary.Precedes (cursor.moveBy (Lexeme.walk text) count).boundary :=
  precedes_moveBy (Lexeme.walk_nil _ _) fun _ => Lexeme.lt_walk _ _

namespace Scan

variable {source : String} {cursor after : Cursor} {slash next : Token} {front : List Char}
  {gap length : Nat}

/-- The token that is read at a cursor comes next there. -/
theorem Reads.follows (reads : Reads cursor gap length next after) (inSource : cursor.IsIn source) :
    next.Follows source cursor.boundary ∧ next.closing = after.boundary ∧ after.IsIn source := by
  obtain ⟨nextIn, start, stop, afterIn⟩ := reads.isIn inSource
  obtain ⟨trivia, begins, lineBreak⟩ := Trivia.eq_of_read reads.trivia
  obtain ⟨flags, lexeme⟩ := reads.lexeme
  have middle : (cursor.pass gap).IsIn source := inSource.pass
  have opening : next.opening = (cursor.pass gap).boundary := by
    rw [Token.opening, reads.start, reads.spanStart]
    rfl
  have closing : next.closing = after.boundary := by
    rw [Token.closing, reads.stop, reads.spanStop]
    rfl
  have between : next.gap source cursor.boundary = cursor.rest.take gap := by
    have gapLe : gap ≤ cursor.rest.length := by
      have bound := Trivia.length_read_le cursor.rest
      rwa [reads.trivia] at bound
    rw [Token.gap, start, Cursor.boundary, ← inSource.text gapLe, String.toList_ofList]
  have line : next.span.start.line =
      cursor.boundary.position.line + lineTerminators (cursor.rest.take gap) := by
    rw [reads.spanStart]
    exact Position.line_after _ _
  refine ⟨?_, closing, afterIn⟩
  constructor
  · exact nextIn
  · rw [opening]
    exact Cursor.precedes_pass _ _
  · rw [opening, closing, reads.moves]
    exact Cursor.precedes_walk _ _ _
  · rw [between, reads.start, ← middle.rest]
    exact trivia
  · rw [between, lineBreak, List.any_eq_true]
  · rw [lineBreak, List.any_eq_true, ← lineTerminators_pos, line]
    exact ⟨fun some => by omega, fun below => by omega⟩
  · intro inside
    have some := (Lexeme.pos_of_read lexeme inside).1
    omega
  · intro ended
    rw [ended] at lexeme
    obtain ⟨nil, zero⟩ := Lexeme.eq_nil_of_read lexeme
    have whole := middle.length_rest
    rw [nil, ← reads.start, List.length_nil, Nat.add_zero] at whole
    exact ⟨whole, by omega⟩
  · intro symbol isSymbol
    rw [isSymbol] at lexeme
    rw [reads.text, Lexeme.text_of_read lexeme]

/-- A regular expression begins where its slash did. -/
theorem RereadsAs.opening (rereads : RereadsAs cursor slash front length next after) :
    next.opening = slash.opening := by
  rw [Token.opening, rereads.start, rereads.spanStart]
  rfl

/-- The cursor is left where the regular expression ends. -/
theorem RereadsAs.closing (rereads : RereadsAs cursor slash front length next after) :
    next.closing = after.boundary := by
  rw [Token.closing, rereads.stop, rereads.spanStop]
  rfl

/-- A regular expression comes next where its slash did. -/
theorem RereadsAs.follows {before : Boundary} (rereads : RereadsAs cursor slash front length next after)
    (isSlash : slash? slash.lexeme = some front) (slashFollows : slash.Follows source before)
    (inSource : cursor.IsIn source) (behind : slash.closing = cursor.boundary) :
    next.Follows source before ∧ next.closing = after.boundary ∧ after.IsIn source := by
  have offset : cursor.offset = slash.stop := congrArg Boundary.offset behind.symm
  obtain ⟨nextIn, stop, afterIn⟩ := rereads.isIn inSource slashFollows.isIn offset
  obtain ⟨pattern, flags, expression⟩ := RegularExpression.eq_of_read rereads.expression
  have between : next.gap source before = slash.gap source before := by
    rw [Token.gap, rereads.start]
    rfl
  refine ⟨?_, rereads.closing, afterIn⟩
  constructor
  · exact nextIn
  · rw [rereads.opening]
    exact slashFollows.after
  · rw [rereads.opening, rereads.closing]
    apply slashFollows.forward.trans
    rw [behind, rereads.moves]
    exact Cursor.precedes_pass _ _
  · rw [between, rereads.start]
    exact slashFollows.trivia
  · rw [between, rereads.lineBreak]
    exact slashFollows.lineBreak
  · rw [rereads.lineBreak, rereads.spanStart]
    exact slashFollows.line
  · intro _
    have inside : slash.lexeme ≠ .endOfFile := by
      intro ended
      simp [ended, slash?] at isSlash
    have wide := slashFollows.wide inside
    rw [rereads.start]
    omega
  · intro ended
    rw [expression] at ended
    contradiction
  · intro symbol isSymbol
    rw [expression] at isSymbol
    contradiction

/-- A run of the scanner lays its tokens one after the other. -/
theorem Runs.tiles {tokens : List Token} (runs : Runs cursor tokens) (inSource : cursor.IsIn source) :
    Token.Tiles source cursor.boundary tokens := by
  induction runs with
  | ended scanned ended =>
    obtain ⟨gap, length, reads⟩ := reads_of_token scanned
    exact .ended (reads.follows inSource).1 ended
  | next scanned inside _ ih =>
    obtain ⟨gap, length, reads⟩ := reads_of_token scanned
    obtain ⟨follows, closing, afterIn⟩ := reads.follows inSource
    apply Token.Tiles.next follows inside
    rw [closing]
    exact ih afterIn
  | reread scanned isSlash rescanned _ ih =>
    obtain ⟨gap, length, reads⟩ := reads_of_token scanned
    obtain ⟨slashFollows, behind, behindIn⟩ := reads.follows inSource
    obtain ⟨further, rereads⟩ := rereadsAs_of_regularExpression rescanned
    obtain ⟨follows, closing, afterIn⟩ := rereads.follows isSlash slashFollows behindIn behind
    obtain ⟨pattern, flags, expression⟩ := RegularExpression.eq_of_read rereads.expression
    apply Token.Tiles.next follows (by simp [expression])
    rw [closing]
    exact ih afterIn

/-- The tokens of a run from the start of a text to its end are a partition of the text. -/
theorem Runs.partition (source : String) {tokens : List Token}
    (runs : Runs (.atStart source) tokens) : Token.Partition source tokens :=
  (runs.tiles (.atStart source)).isPartition

/-- A division, and then a slash that is read again, with comments around it. -/
theorem partition_of_division :
    ∃ tokens, Runs (.atStart "a /= /*\r\n*/ /=b/g // c\n;") tokens ∧ tokens.length = 5 ∧
      Token.Partition "a /= /*\r\n*/ /=b/g // c\n;" tokens := by
  have chosen : (run? (.atStart "a /= /*\r\n*/ /=b/g // c\n;") [false, false, true, false]).any
      (·.length == 5) = true := by decide +kernel
  obtain ⟨tokens, same, length⟩ := (Option.any_eq_true _ _).mp chosen
  have runs := runs_iff.mpr ⟨_, same⟩
  exact ⟨tokens, runs, by simpa using length, Runs.partition _ runs⟩

end Scan

end EcmaScript
