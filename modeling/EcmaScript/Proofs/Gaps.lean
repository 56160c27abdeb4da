import EcmaScript.Proofs.SemicolonInsertion
import EcmaScript.Proofs.Termination

/-!
# Gaps between tokens

Trivia matters only as far as a line ends in it. When all that stands between two tokens is replaced
by one space, or by one line feed if a line ends in it, the text is read as the same program but for
the positions, or refused for the same cause.
-/

namespace EcmaScript

/-- The character that stands for a gap. -/
def gapMark (gap : List Char) : Char :=
  if gap.any isLineTerminator then '\n' else ' '

/-- The text with some characters from an offset on replaced by the one that stands for them. -/
def replaceGap (source : String) (offset length : Nat) : String :=
  let characters := source.toList
  String.ofList (characters.take offset ++
    gapMark ((characters.drop offset).take length) :: characters.drop (offset + length))

/-- The offsets at which the next token is looked for when a text is read: where the first one is
expected, and behind every token that is scanned, but for the last one if none is looked for behind
it. -/
def searchOffsets (source : String) (options : Options) : List Nat :=
  let (result, after) := (State.ofSource source options).parse
  let tokens := Event.tokens after.events
  (State.ofSource source options).opening.offset ::
    (if endsInSearch result then tokens else tokens.tail).reverse.map Token.stop

/-- Two texts are read as programs that are the same but for their positions, or refused for the same
cause, which is reported in the same category with the same message. -/
def SameButPlaces : Except Fault Program → Except Fault Program → Prop
  | .ok program, .ok other => other.unplaced = program.unplaced
  | .error fault, .error other => other.cause = fault.cause
  | _, _ => False

namespace Trivia

/-- Behind trivia there is no more of it. -/
theorem stops_readFrom {region : Region} {index length : Nat} {before lineBreak : Bool}
    {text : List Char} (read : readFrom region index before text = .success length lineBreak) :
    ∃ gap follower, text = gap ++ follower ∧ length = index + gap.length ∧
      ∀ start flag, readFrom .between start flag follower = .success start flag := by
  fun_induction readFrom region index before text with
  | case5 index before char rest notLine notBlock terminator blank =>
    cases read
    refine ⟨[], char :: rest, rfl, rfl, fun start flag => ?_⟩
    rw [readFrom, if_neg terminator, if_neg blank]
    · exact notLine
    · exact notBlock
  | case10 => cases read
  | case11 =>
    cases read
    exact ⟨[], [], rfl, rfl, fun start flag => by rw [readFrom]; rintro _ ⟨⟩⟩
  | case1 _ _ _ ih | case2 _ _ _ ih | case8 _ _ _ _ ih =>
    obtain ⟨gap, follower, rfl, same, stops⟩ := ih read
    exact ⟨_ :: _ :: gap, follower, rfl, by simp only [same, List.length_cons]; omega, stops⟩
  | case3 _ _ _ _ _ _ _ ih | case4 _ _ _ _ _ _ _ _ ih | case6 _ _ _ _ _ ih | case7 _ _ _ _ _ ih
  | case9 _ _ _ _ _ _ ih =>
    obtain ⟨gap, follower, rfl, same, stops⟩ := ih read
    exact ⟨_ :: gap, follower, rfl, by simp only [same, List.length_cons]; omega, stops⟩

theorem stops_read {text : List Char} {length : Nat} {lineBreak : Bool}
    (success : read text = .success length lineBreak) (start : Nat) (flag : Bool) :
    readFrom .between start flag (text.drop length) = .success start flag := by
  obtain ⟨gap, follower, rfl, same, stops⟩ := stops_readFrom success
  rw [Nat.zero_add] at same
  rw [same, List.drop_left]
  exact stops start flag

/-- The mark of a gap is read as the gap is. -/
theorem read_gapMark {text : List Char} {length : Nat} {lineBreak : Bool}
    (success : read text = .success length lineBreak) :
    read (gapMark (text.take length) :: text.drop length) = .success 1 lineBreak := by
  have stops := stops_read success
  obtain ⟨-, -, breaks⟩ := eq_of_read success
  rw [read, gapMark, ← breaks]
  cases lineBreak with
  | false => exact (readFrom.eq_def ..).trans (stops 1 false)
  | true => exact (readFrom.eq_def ..).trans (stops 1 true)

end Trivia

namespace Scan

/-- Two actions end alike: with tokens that are alike, in front of texts that belong together, or for
the same cause. -/
abbrev Corresponds (Rests : List Char → List Char → Prop) :
    EStateM.Result Fault Cursor Token → EStateM.Result Fault Cursor Token → Prop :=
  EndAlike Token.Alike (fun after last => Rests after.rest last.rest) fun fault other =>
    other.cause = fault.cause

variable {first second : Cursor} {rests : List Char → List Char → Prop}

theorem lexeme_corresponds (same : second.rest = first.rest) (lineBreak : Bool) :
    Corresponds (fun rest other => other = rest) (lexeme lineBreak first)
      (lexeme lineBreak second) := by
  unfold lexeme
  rw [same]
  cases Lexeme.read first.rest with
  | failure => exact .error rfl
  | success =>
    refine .ok ⟨rfl, rfl, rfl, rfl⟩ ?_
    rw [Cursor.moveBy, Cursor.moveBy, same]

theorem token_eq_lexeme {cursor : Cursor} {gap : Nat} {lineBreak : Bool}
    (read : Trivia.read cursor.rest = .success gap lineBreak) :
    token cursor = lexeme lineBreak (cursor.pass gap) := by
  simp only [token, bind, EStateM.bind, trivia, read]

/-- Behind trivia in which a line ends or not, a token is what it is behind other such trivia. -/
theorem token_corresponds_of_trivia {gap other : Nat} {lineBreak : Bool}
    (read : Trivia.read first.rest = .success gap lineBreak)
    (readToo : Trivia.read second.rest = .success other lineBreak)
    (same : second.rest.drop other = first.rest.drop gap) :
    Corresponds (fun rest other => other = rest) (token first) (token second) := by
  rw [token_eq_lexeme read, token_eq_lexeme readToo]
  exact lexeme_corresponds same lineBreak

theorem token_corresponds (same : second.rest = first.rest) :
    Corresponds (fun rest other => other = rest) (token first) (token second) := by
  cases read : Trivia.read first.rest with
  | success gap lineBreak =>
    exact token_corresponds_of_trivia read (same ▸ read) (congrArg (List.drop gap) same)
  | failure gap cause place =>
    simp only [token, bind, EStateM.bind, trivia, same, read]
    exact .error rfl

theorem regularExpression_corresponds (same : second.rest = first.rest) {slash slashToo : Token}
    (alike : slash.Alike slashToo) (front : List Char) :
    Corresponds (fun rest other => other = rest) (regularExpression slash front first)
      (regularExpression slashToo front second) := by
  unfold regularExpression
  rw [same]
  cases RegularExpression.read front first.rest with
  | failure => exact .error rfl
  | success =>
    refine .ok ⟨rfl, by rw [alike.flags], by rw [alike.text], rfl⟩ ?_
    rw [Cursor.rest_pass, Cursor.rest_pass, same]

end Scan

/-- The parse of a text, and a gap in front of one of its tokens. -/
structure Gap where
  source : String
  offset : Nat
  length : Nat
  lineBreak : Bool
  read : Trivia.read (source.toList.drop offset) = .success length lineBreak
  pos : 0 < length
  /-- The tokens that are scanned in the parse, the latest first. -/
  tokens : List Token
  /-- The gap comes behind a token. -/
  isBehind : Prop
  searched : isBehind → ∃ token ∈ tokens, token.stop = offset

namespace Gap

variable (gap : Gap) {first second before after : Point}

/-- The gap and the text behind it. -/
def ahead : List Char :=
  gap.source.toList.drop gap.offset

/-- The mark that replaces the gap, and the text behind it. -/
def replaced : List Char :=
  gapMark (gap.ahead.take gap.length) :: gap.source.toList.drop (gap.offset + gap.length)

/-- The text ahead is the same, or it has the gap ahead, and the other one its mark. -/
def Rests (rest other : List Char) : Prop :=
  other = rest ∨ gap.isBehind ∧ ∃ front, rest = front ++ gap.ahead ∧ other = front ++ gap.replaced

/-- The tokens that have been scanned end in front of the cursor, or at it. -/
structure Reached (point : Point) : Prop where
  isIn : point.IsIn gap.source
  latest : point.scanned.head? = some point.lookahead
  stop_le : ∀ token ∈ point.scanned.tail, token.stop ≤ point.cursor.offset
  stop_lt : point.lookahead.lexeme ≠ .endOfFile →
    ∀ token ∈ point.scanned.tail, token.stop < point.cursor.offset

/-- The tokens of the parse that are not behind a point are ahead of it, with the text that comes
after them. -/
def Ahead (point : Point) : Prop :=
  ∃ further, gap.tokens = further ++ point.scanned.tail ∧
    ∀ token ∈ further, gap.source.toList.drop token.stop <:+ point.cursor.rest

/-- All tokens have been scanned, and one ends at the gap, where another one is looked for. -/
def Doomed (fault : Fault) (point : Point) : Prop :=
  point.scanned = gap.tokens ∧
    (gap.isBehind → fault.cause.isOfToken = false →
      ∃ token ∈ gap.tokens.tail, token.stop = gap.offset)

variable {gap}

theorem ahead_eq : gap.ahead.drop gap.length =
    gap.source.toList.drop (gap.offset + gap.length) := by
  rw [ahead, List.drop_drop]

theorem length_ahead : gap.offset + gap.ahead.length = gap.source.length ∧
    gap.offset < gap.source.length := by
  have within := Trivia.length_read_le gap.ahead
  have pos := gap.pos
  rw [ahead, gap.read] at within
  have within : gap.length ≤ (gap.source.toList.drop gap.offset).length := within
  rw [ahead, List.length_drop, String.length_toList] at *
  omega

theorem read_replaced : Trivia.read gap.replaced = .success 1 gap.lineBreak := by
  rw [replaced, ← ahead_eq]
  exact Trivia.read_gapMark gap.read

theorem separated_replaced : Separated gap.replaced := by
  rw [replaced, gapMark]
  split
  · exact separated_cons (by decide +kernel)
  · exact separated_cons (by decide +kernel)

/-- A cursor in front of the gap has an offset in front of it. -/
theorem offset_of_rest {cursor : Cursor} {front : List Char} (isIn : cursor.IsIn gap.source)
    (rest : cursor.rest = front ++ gap.ahead) : cursor.offset + front.length = gap.offset := by
  have whole := isIn.length_rest
  have length := gap.length_ahead
  rw [rest, List.length_append] at whole
  omega

/-- At the gap the same token is scanned behind the mark. -/
theorem token_of_gap {first second : Cursor} (rest : first.rest = gap.ahead)
    (restToo : second.rest = gap.replaced) :
    Scan.Corresponds (fun rest other => other = rest) (Scan.token first) (Scan.token second) := by
  refine Scan.token_corresponds_of_trivia (by rw [rest]; exact gap.read)
    (by rw [restToo]; exact gap.read_replaced) ?_
  rw [rest, restToo, ahead_eq]
  rfl

/-- A token that ends in front of the gap is scanned in front of the mark. -/
theorem token_of_suffix {first second after : Cursor} {next : Token} {front : List Char}
    (behind : gap.isBehind) (scanned : Scan.token first = .ok next after)
    (suffix : gap.ahead <:+ after.rest) (rest : first.rest = front ++ gap.ahead)
    (restToo : second.rest = front ++ gap.replaced) :
    ∃ mate last, Scan.token second = .ok mate last ∧ next.Alike mate ∧
      gap.Rests after.rest last.rest := by
  have inside : next.lexeme ≠ .endOfFile := by
    intro ended
    obtain ⟨_, _, length, _, _, _, found, rfl, rfl⟩ := Scan.token_eq_ok.mp scanned
    dsimp only at ended
    rw [ended] at found
    have whole := gap.length_ahead
    rw [Cursor.moveBy, Cursor.rest_pass, (Lexeme.eq_nil_of_read found).1, List.drop_nil,
      List.suffix_nil] at suffix
    rw [suffix, List.length_nil] at whole
    omega
  obtain ⟨mate, last, passed, scannedToo, alike, afterRest, lastRest⟩ :=
    Scan.token_append scanned inside rest restToo suffix.length_le gap.separated_replaced
  exact ⟨mate, last, scannedToo, alike, .inr ⟨behind, passed, afterRest, lastRest⟩⟩

theorem exists_offset_of_advances (isIn : before.IsIn gap.source) (step : before.Advances after) :
    ∃ passed, before.cursor.rest = passed ++ after.cursor.rest ∧
      before.cursor.offset + passed.length = after.cursor.offset ∧
      (after.lookahead.lexeme ≠ .endOfFile → 0 < passed.length) := by
  have whole := isIn.cursor.length_rest
  have wholeToo := (step.isIn isIn).cursor.length_rest
  obtain ⟨_, next, cursor, scanned, rfl⟩ := step
  obtain ⟨passed, same, some⟩ := Scan.exists_passed scanned
  rw [same, List.length_append] at whole
  refine ⟨passed, same, ?_, fun inside => List.length_pos_iff.mpr (some inside)⟩
  dsimp only at wholeToo ⊢
  omega

/-- The text behind the lookahead is ahead of the cursor. -/
theorem suffix_of_isIn (isIn : before.IsIn gap.source) :
    gap.source.toList.drop before.lookahead.stop <:+ before.cursor.rest := by
  have same : before.cursor.rest = gap.source.toList.drop before.lookahead.stop := by
    rw [isIn.cursor.rest, isIn.offset]
  exact same ▸ List.suffix_refl _

theorem Reached.stop_le_of_mem (reached : gap.Reached before) {token : Token}
    (member : token ∈ before.scanned) : token.stop ≤ before.cursor.offset := by
  obtain ⟨others, scanned⟩ := List.head?_eq_some_iff.mp reached.latest
  have earlier := reached.stop_le token
  rw [scanned] at member earlier
  rcases List.mem_cons.mp member with rfl | member
  · exact Nat.le_of_eq reached.isIn.offset.symm
  · exact earlier member

theorem Reached.advances (reached : gap.Reached before) (step : before.Advances after) :
    gap.Reached after := by
  have isIn := step.isIn reached.isIn
  obtain ⟨passed, -, offset, some⟩ := exists_offset_of_advances reached.isIn step
  obtain ⟨inside, next, cursor, scanned, rfl⟩ := step
  refine ⟨isIn, rfl, fun token member => ?_, fun inside token member => ?_⟩
  · have le := reached.stop_le_of_mem member
    dsimp only at offset ⊢
    omega
  · have le := reached.stop_le_of_mem member
    have pos := some inside
    dsimp only at offset ⊢
    omega

theorem exists_offset_of_rereads (isIn : before.IsIn gap.source) (again : before.Rereads after) :
    ∃ passed, before.cursor.rest = passed ++ after.cursor.rest ∧
      before.cursor.offset + passed.length = after.cursor.offset := by
  have whole := isIn.cursor.length_rest
  have wholeToo := (again.isIn isIn).cursor.length_rest
  obtain ⟨passed, same⟩ := again.exists_passed
  rw [same, List.length_append] at whole
  exact ⟨passed, same, by omega⟩

theorem lexeme_ne_of_slash {token : Token} {front : List Char}
    (slash : Scan.slash? token.lexeme = some front) : token.lexeme ≠ .endOfFile := by
  intro ended
  rw [ended] at slash
  cases slash

theorem Reached.rereads (reached : gap.Reached before) (again : before.Rereads after) :
    gap.Reached after := by
  have isIn := again.isIn reached.isIn
  obtain ⟨passed, -, offset⟩ := exists_offset_of_rereads reached.isIn again
  obtain ⟨front, next, cursor, slash, scanned, rfl⟩ := again
  have earlier := reached.stop_lt (lexeme_ne_of_slash slash)
  have stop_lt : ∀ token ∈ before.scanned.tail, token.stop < cursor.offset := by
    intro token member
    have lt := earlier token member
    dsimp only at offset
    omega
  exact ⟨isIn, rfl, fun token member => Nat.le_of_lt (stop_lt token member),
    fun _ => stop_lt⟩

/-- Where all tokens have been scanned, the text behind the last one is ahead. -/
theorem Reached.ahead_of_scanned (reached : gap.Reached before)
    (scanned : before.scanned = gap.tokens) : gap.Ahead before := by
  obtain ⟨others, latest⟩ := List.head?_eq_some_iff.mp reached.latest
  refine ⟨[before.lookahead], by rw [← scanned, latest]; rfl, fun token member => ?_⟩
  rw [List.mem_singleton.mp member]
  exact suffix_of_isIn reached.isIn

theorem Reached.ahead_of_advances (reached : gap.Reached before) (step : before.Advances after)
    (ahead : gap.Ahead after) : gap.Ahead before := by
  obtain ⟨passed, rest⟩ := step.exists_passed
  obtain ⟨_, next, cursor, scanned, rfl⟩ := step
  obtain ⟨further, whole, suffix⟩ := ahead
  obtain ⟨others, latest⟩ := List.head?_eq_some_iff.mp reached.latest
  refine ⟨further ++ [before.lookahead], ?_, fun token member => ?_⟩
  · rw [whole, List.append_assoc, latest]
    rfl
  · rcases List.mem_append.mp member with member | member
    · exact (suffix token member).trans ⟨passed, rest.symm⟩
    · rw [List.mem_singleton.mp member]
      exact suffix_of_isIn reached.isIn

theorem ahead_of_rereads (again : before.Rereads after) (ahead : gap.Ahead after) :
    gap.Ahead before := by
  obtain ⟨passed, rest⟩ := again.exists_passed
  obtain ⟨front, next, cursor, slash, scanned, rfl⟩ := again
  obtain ⟨further, whole, suffix⟩ := ahead
  exact ⟨further, whole, fun token member => (suffix token member).trans ⟨passed, rest.symm⟩⟩

/-- What is scanned in front of the gap ends in front of it. -/
theorem suffix_of_ahead (ahead : gap.Ahead after) (behind : gap.isBehind)
    (earlier : ∀ token ∈ after.scanned.tail, token.stop < gap.offset) :
    gap.ahead <:+ after.cursor.rest := by
  obtain ⟨further, whole, suffix⟩ := ahead
  obtain ⟨token, member, ends⟩ := gap.searched behind
  rw [whole] at member
  rcases List.mem_append.mp member with member | member
  · have found := suffix token member
    rwa [ends] at found
  · exact absurd ends (Nat.ne_of_lt (earlier token member))

/-- Parses of the two texts that have come equally far. -/
def Level (gap : Gap) (first second : Point) : Prop :=
  first.lookahead.Alike second.lookahead ∧ gap.Rests first.cursor.rest second.cursor.rest

theorem advances (level : gap.Level first second) (reached : gap.Reached first)
    (step : first.Advances after) (ahead : gap.Ahead after) :
    ∃ other, second.Advances other ∧ gap.Level after other := by
  obtain ⟨alike, rests⟩ := level
  have reachedNext := reached.advances step
  obtain ⟨inside, next, cursor, scanned, rfl⟩ := step
  have found : ∃ mate last, Scan.token second.cursor = .ok mate last ∧ next.Alike mate ∧
      gap.Rests cursor.rest last.rest := by
    rcases rests with same | ⟨behind, front, rest, restToo⟩
    · obtain ⟨mate, last, scannedToo, alike, same⟩ :=
        (Scan.token_corresponds same).exists_ok scanned
      exact ⟨mate, last, scannedToo, alike, .inl same⟩
    · rcases List.eq_nil_or_concat front with rfl | ⟨others, char, rfl⟩
      · obtain ⟨mate, last, scannedToo, alike, same⟩ :=
          (gap.token_of_gap rest restToo).exists_ok scanned
        exact ⟨mate, last, scannedToo, alike, .inl same⟩
      · -- The gap is still ahead, and so what is scanned ends before it does.
        refine gap.token_of_suffix behind scanned (suffix_of_ahead ahead behind ?_) rest restToo
        intro token member
        have offset := offset_of_rest reached.isIn.cursor rest
        rw [List.concat_eq_append, List.length_append, List.length_singleton] at offset
        have le := reached.stop_le_of_mem member
        omega
  obtain ⟨mate, last, scannedToo, alikeToo, rests⟩ := found
  exact ⟨_, ⟨alike.lexeme ▸ inside, mate, last, scannedToo, rfl⟩, alikeToo, rests⟩

/-- A token that is not found in the one text is not found in the other one. -/
theorem fault_of_token {fault : Fault} {cursor : Cursor} (level : gap.Level first second)
    (reached : gap.Reached first) (scanned : Scan.token first.cursor = .error fault cursor)
    (doomed : gap.Doomed fault { first with cursor }) :
    ∃ other last, Scan.token second.cursor = .error other last ∧ other.cause = fault.cause := by
  obtain ⟨alike, same | ⟨behind, front, rest, restToo⟩⟩ := level
  · exact (Scan.token_corresponds same).exists_error scanned
  · -- No token that has been scanned ends behind the cursor, and so the gap begins at it.
    obtain ⟨token, member, ends⟩ := gap.searched behind
    rw [← doomed.1] at member
    have le := reached.stop_le_of_mem member
    have offset := offset_of_rest reached.isIn.cursor rest
    obtain rfl : front = [] := List.length_eq_zero_iff.mp (by omega)
    exact (gap.token_of_gap rest restToo).exists_error scanned

theorem rereads (level : gap.Level first second) (reached : gap.Reached first)
    (again : first.Rereads after) (ahead : gap.Ahead after) :
    ∃ other, second.Rereads other ∧ gap.Level after other := by
  obtain ⟨alike, rests⟩ := level
  obtain ⟨opening, next, cursor, slash, scanned, rfl⟩ := again
  have found : ∃ mate last, Scan.regularExpression second.lookahead opening second.cursor =
      .ok mate last ∧ next.Alike mate ∧ gap.Rests cursor.rest last.rest := by
    rcases rests with same | ⟨behind, front, rest, restToo⟩
    · obtain ⟨mate, last, scannedToo, alike, same⟩ :=
        (Scan.regularExpression_corresponds same alike opening).exists_ok scanned
      exact ⟨mate, last, scannedToo, alike, .inl same⟩
    · have suffix : gap.ahead <:+ cursor.rest := by
        refine suffix_of_ahead ahead behind fun token member => ?_
        have lt := reached.stop_lt (lexeme_ne_of_slash slash) token member
        have offset := offset_of_rest reached.isIn.cursor rest
        omega
      obtain ⟨mate, last, passed, scannedToo, alike, afterRest, lastRest⟩ :=
        Scan.regularExpression_append scanned alike rest restToo suffix.length_le
          gap.separated_replaced
      exact ⟨mate, last, scannedToo, alike, .inr ⟨behind, passed, afterRest, lastRest⟩⟩
  obtain ⟨mate, last, scannedToo, alikeToo, rests⟩ := found
  exact ⟨_, ⟨opening, mate, last, alike.lexeme ▸ slash, scannedToo, rfl⟩, alikeToo, rests⟩

theorem fault_of_regularExpression {opening : List Char} {fault : Fault} {cursor : Cursor}
    (level : gap.Level first second) (reached : gap.Reached first)
    (slash : Scan.slash? first.lookahead.lexeme = some opening)
    (scanned : Scan.regularExpression first.lookahead opening first.cursor = .error fault cursor)
    (doomed : gap.Doomed fault { first with cursor }) :
    ∃ other last, Scan.regularExpression second.lookahead opening second.cursor =
      .error other last ∧ other.cause = fault.cause := by
  obtain ⟨alike, same | ⟨behind, front, rest, restToo⟩⟩ := level
  · exact (Scan.regularExpression_corresponds same alike opening).exists_error scanned
  · -- All tokens but the slash end in front of the cursor, and so the gap lies behind.
    have expression := (Scan.lexical_of_regularExpression scanned).2
    obtain ⟨token, member, ends⟩ := doomed.2 behind (by simp [Cause.isOfToken, expression])
    rw [← doomed.1] at member
    have lt := reached.stop_lt (lexeme_ne_of_slash slash) token member
    have offset := offset_of_rest reached.isIn.cursor rest
    omega

variable (gap) in
/-- The parse of a text, and that of the text with the mark in place of the gap. -/
def pairing (returns : Bool) : Pairing where
  left _ := .first
  right _ := .first
  mate := id
  right_mate _ := rfl
  firstReturns := returns
  secondReturns := returns
  Reached := gap.Reached
  Ahead := gap.Ahead
  Doomed := gap.Doomed
  Level := gap.Level
  reached_of_advances := Reached.advances
  reached_of_rereads := Reached.rereads
  ahead_of_advances := Reached.ahead_of_advances
  ahead_of_rereads _ := ahead_of_rereads
  ahead_of_doomed reached fails doomed :=
    reached.ahead_of_scanned (fails.scanned.symm.trans doomed.1)
  matches_of_level level := level.1
  consumedEnd_of_level _ := rfl
  advances := advances
  fault_of_token level reached scanned doomed := by
    obtain ⟨other, last, scannedToo, cause⟩ := fault_of_token level reached scanned doomed
    exact ⟨other, last, scannedToo, cause, rfl⟩
  rereads := rereads
  fault_of_regularExpression level reached slash scanned doomed := by
    obtain ⟨other, last, scannedToo, cause⟩ :=
      fault_of_regularExpression level reached slash scanned doomed
    exact ⟨other, last, scannedToo, cause, rfl⟩

variable (gap) in
/-- The alignment of the parse of a text with that of the text with the mark in place of the gap. -/
def alignment (returns : Bool) : Alignment :=
  (gap.pairing returns).alignment

end Gap

/-- A first line that is passed over ends with its line. -/
theorem State.opening_cases (source : String) (options : Options) :
    (ofSource source options).opening = .atStart source ∨
      ∀ char ∈ (ofSource source options).opening.rest.head?, isLineTerminator char = true := by
  unfold opening
  split
  · by_cases hashbang : ['#', '!'] <+: source.toList
    · obtain ⟨line, begins⟩ := hashbang
      right
      have rest : (Cursor.atStart source).passHashbang.rest =
          line.dropWhile fun char => !isLineTerminator char := by
        rw [Cursor.atStart, ← begins]
        exact Cursor.rest_passHashbang line .first
      intro char first
      change char ∈ (Cursor.atStart source).passHashbang.rest.head? at first
      rw [rest] at first
      have stopped := List.head?_dropWhile_not (fun char => !isLineTerminator char) line
      rw [first] at stopped
      simpa using stopped
    · exact .inl (Cursor.passHashbang_of_plain hashbang)
  · exact .inl rfl

namespace Gap

variable {gap : Gap} {options : Options}

/-- The first token is looked for at the same place of the other text. -/
theorem rest_opening {front : List Char}
    (rest : (State.ofSource gap.source options).opening.rest = front ++ gap.ahead) :
    (State.ofSource (replaceGap gap.source gap.offset gap.length) options).opening.rest =
      front ++ gap.replaced := by
  have apart : ∀ char ∈ gap.replaced.head?, char ≠ '#' ∧ char ≠ '!' := by
    rintro _ ⟨⟩
    rw [gapMark]
    split <;> decide
  refine State.rest_opening_append apart (fun none some => ?_) rest
  rintro _ ⟨⟩
  rw [none, List.nil_append] at rest
  -- The text of the gap begins with the end of a first line that is passed over.
  rcases State.opening_cases gap.source options with start | terminated
  · rw [start] at rest
    have whole : gap.source.toList.length = gap.ahead.length := congrArg List.length rest
    have length := gap.length_ahead
    rw [String.length_toList] at whole
    have zero : gap.offset = 0 := by omega
    rw [zero] at some
    exact absurd rfl some
  · rw [rest] at terminated
    have breaks : (gap.ahead.take gap.length).any isLineTerminator = true := by
      obtain ⟨more, length⟩ := Nat.exists_eq_add_of_lt gap.pos
      cases text : gap.ahead with
      | nil =>
        have length := gap.length_ahead
        rw [text, List.length_nil] at length
        omega
      | cons char others =>
        rw [text] at terminated
        rw [length, Nat.zero_add, List.take_succ_cons, List.any_cons, terminated char rfl]
        rfl
    change isLineTerminator (gapMark (gap.ahead.take gap.length)) = true
    rw [gapMark, if_pos breaks]
    decide

theorem reached_begun {token : Token} {cursor : Cursor}
    (scanned : Scan.token (State.ofSource gap.source options).opening = .ok token cursor) :
    gap.Reached ((State.ofSource gap.source options).begun token cursor).point :=
  ⟨(Grammar.begins_of_token scanned).isIn, rfl, by rintro _ ⟨⟩, by rintro _ _ ⟨⟩⟩

/-- The first token of the other text is scanned like that of the text with the gap. -/
theorem exists_begun {token : Token} {cursor : Cursor}
    (scanned : Scan.token (State.ofSource gap.source options).opening = .ok token cursor)
    (ahead : gap.Ahead ((State.ofSource gap.source options).begun token cursor).point)
    (sought : gap.offset = (State.ofSource gap.source options).opening.offset ∨ gap.isBehind) :
    let replaced := State.ofSource (replaceGap gap.source gap.offset gap.length) options
    ∃ mate last, Scan.token replaced.opening = .ok mate last ∧
      gap.Level ((State.ofSource gap.source options).begun token cursor).point
        (replaced.begun mate last).point := by
  have isIn : (State.ofSource gap.source options).opening.IsIn gap.source := State.isIn_opening
  rcases sought with here | behind
  · have rest : (State.ofSource gap.source options).opening.rest = [] ++ gap.ahead := by
      rw [isIn.rest, ← here]
      rfl
    obtain ⟨mate, last, scannedToo, alike, same⟩ :=
      (gap.token_of_gap rest (rest_opening rest)).exists_ok scanned
    exact ⟨mate, last, scannedToo, alike, .inl same⟩
  · have suffix : gap.ahead <:+ cursor.rest :=
      suffix_of_ahead ahead behind (by rintro _ ⟨⟩)
    obtain ⟨passed, same, -⟩ := Scan.exists_passed scanned
    obtain ⟨front, ahead⟩ := suffix
    have rest : (State.ofSource gap.source options).opening.rest =
        (passed ++ front) ++ gap.ahead := by
      rw [same, ← ahead, List.append_assoc]
    obtain ⟨mate, last, scannedToo, alike, rests⟩ :=
      gap.token_of_suffix behind scanned ⟨front, ahead⟩ rest (rest_opening rest)
    exact ⟨mate, last, scannedToo, alike, rests⟩

/-- The states in which the first tokens have been scanned are level. -/
theorem related_begun {token mate : Token} {cursor last : Cursor}
    (scanned : Scan.token (State.ofSource gap.source options).opening = .ok token cursor)
    {other : String} (level : gap.Level ((State.ofSource gap.source options).begun token cursor).point
      ((State.ofSource other options).begun mate last).point) :
    (gap.alignment options.allowReturnOutsideFunction).Related (True ∨ False)
      ((State.ofSource gap.source options).begun token cursor)
      ((State.ofSource other options).begun mate last) where
  reached := reached_begun scanned
  points := .inl level
  context := rfl
  labels := rfl
  returns := rfl
  firstReturns := rfl
  secondReturns := rfl

section Parses

variable {after : State} (sought : gap.offset = (State.ofSource gap.source options).opening.offset ∨
  gap.isBehind)
include sought

/-- A text that is accepted is accepted with the mark in place of the gap. -/
theorem exists_of_parse {program : Program}
    (accepted : (State.ofSource gap.source options).parse = (.ok program, after))
    (tokens : after.point.scanned = gap.tokens) :
    ∃ other, parse (replaceGap gap.source gap.offset gap.length) options = .ok other ∧
      other.unplaced = program.unplaced := by
  obtain ⟨budget, enough, enoughToo⟩ : ∃ budget, gap.source.length + 2 ≤ budget ∧
      (replaceGap gap.source gap.offset gap.length).length + 2 ≤ budget :=
    ⟨_, Nat.le_max_left _ _, Nat.le_max_right _ _⟩
  obtain ⟨token, cursor, last, scanned, run, -, -, same⟩ := State.exists_topLevel_of_parse accepted
  have follows := Grammar.follows_topLevel (σ := gap.alignment options.allowReturnOutsideFunction)
    (Nonterminals.follows_ofBudget enough) rfl enough
  obtain ⟨reached, -, back⟩ := follows.heeds (reached_begun scanned) run
  have ahead : gap.Ahead last.point := Reached.ahead_of_scanned reached (same ▸ tokens)
  have begun := @back True ahead
  obtain ⟨mate, cursorToo, scannedToo, level⟩ := exists_begun scanned begun sought
  obtain ⟨body, final, runToo, sameBody, -⟩ :=
    follows.ok (related_begun scanned level) run ahead
  rw [parse_eq_of_budget enoughToo, scannedToo]
  dsimp only
  rw [runToo]
  exact ⟨_, rfl, Program.unplaced_eq (Eq.symm sameBody) _ _⟩

/-- A text that is refused is refused for the same cause with the mark in place of the gap. -/
theorem exists_fault_of_parse {fault : Fault}
    (refused : (State.ofSource gap.source options).parse = (.error fault, after))
    (doomed : gap.Doomed fault after.point) :
    ∃ other, parse (replaceGap gap.source gap.offset gap.length) options = .error other ∧
      other.cause = fault.cause := by
  rcases State.exists_fault_of_parse refused with ⟨scanned, none⟩ | ⟨token, cursor, scanned, run⟩
  · have here : gap.offset = (State.ofSource gap.source options).opening.offset := by
      refine sought.resolve_right fun behind => ?_
      obtain ⟨token, member, -⟩ := gap.searched behind
      have tokens : gap.tokens = [] := doomed.1.symm.trans none
      rw [tokens] at member
      cases member
    have rest : (State.ofSource gap.source options).opening.rest = [] ++ gap.ahead := by
      rw [State.isIn_opening.rest, ← here]
      rfl
    obtain ⟨other, last, scannedToo, cause⟩ :=
      (gap.token_of_gap rest (rest_opening rest)).exists_error scanned
    exact ⟨other, by rw [parse_eq, scannedToo], cause⟩
  · obtain ⟨budget, enough, enoughToo⟩ : ∃ budget, gap.source.length + 2 ≤ budget ∧
        (replaceGap gap.source gap.offset gap.length).length + 2 ≤ budget :=
      ⟨_, Nat.le_max_left _ _, Nat.le_max_right _ _⟩
    have possible := possible_of_parse (congrArg Prod.fst refused)
    have follows := Grammar.follows_topLevel (σ := gap.alignment options.allowReturnOutsideFunction)
      (Nonterminals.follows_ofBudget enough) rfl enough
    have ahead := follows.ahead (reached_begun scanned) run possible doomed True
    obtain ⟨mate, cursorToo, scannedToo, level⟩ := exists_begun scanned ahead sought
    obtain ⟨other, final, runToo, cause, -⟩ :=
      follows.error (related_begun scanned level) run possible doomed
    refine ⟨other, ?_, cause⟩
    rw [parse_eq_of_budget enoughToo, scannedToo]
    dsimp only
    rw [runToo]

end Parses

end Gap

/-- When all the trivia in front of a token is replaced by one space, or by one line feed if a line
ends in it, a text is read as the same program but for the positions, or refused for the same cause.
-/
theorem parse_of_gap {source : String} {options : Options} {offset length : Nat} {lineBreak : Bool}
    (searched : offset ∈ searchOffsets source options)
    (read : Trivia.read (source.toList.drop offset) = .success length lineBreak)
    (pos : 0 < length) :
    SameButPlaces (parse source options) (parse (replaceGap source offset length) options) := by
  cases run : (State.ofSource source options).parse with
  | mk result after =>
    have result_eq : parse source options = result := congrArg Prod.fst run
    rw [result_eq]
    rw [searchOffsets, run] at searched
    dsimp only at searched
    -- The gap is behind a token, or the first token is looked for in front of it.
    obtain ⟨gap, rfl, rfl, rfl, tokens, behind⟩ : ∃ gap : Gap, gap.source = source ∧
        gap.offset = offset ∧ gap.length = length ∧ gap.tokens = Event.tokens after.events ∧
        (gap.isBehind ↔ offset ∈ (if endsInSearch result then Event.tokens after.events
          else (Event.tokens after.events).tail).map Token.stop) :=
      ⟨{ source, offset, length, lineBreak, read, pos
         tokens := Event.tokens after.events
         isBehind := _
         searched := fun behind => by
           obtain ⟨token, member, ends⟩ := List.mem_map.mp behind
           refine ⟨token, ?_, ends⟩
           split at member
           · exact member
           · exact List.mem_of_mem_tail member }, rfl, rfl, rfl, rfl, Iff.rfl⟩
    have sought : gap.offset = (State.ofSource gap.source options).opening.offset ∨
        gap.isBehind := by
      rw [behind]
      simpa using searched
    cases result with
    | ok program =>
      obtain ⟨other, same, unplaced⟩ := gap.exists_of_parse sought run tokens.symm
      rw [same]
      exact unplaced
    | error fault =>
      have doomed : gap.Doomed fault after.point := by
        refine ⟨tokens.symm, fun isBehind notFound => ?_⟩
        rw [behind, endsInSearch, notFound] at isBehind
        rw [tokens]
        exact List.mem_map.mp isBehind
      obtain ⟨other, same, cause⟩ := gap.exists_fault_of_parse sought run doomed
      rw [same]
      exact cause

/-- Two names with a comment between them that runs over two lines are two names on two lines. -/
theorem same_of_names :
    1 ∈ searchOffsets "a/* \n */b" {} ∧
      Trivia.read ("a/* \n */b".toList.drop 1) = .success 7 true ∧ 0 < 7 ∧
      SameButPlaces (parse "a/* \n */b" {}) (parse (replaceGap "a/* \n */b" 1 7) {}) ∧
      replaceGap "a/* \n */b" 1 7 = "a\nb" := by
  have searched : 1 ∈ searchOffsets "a/* \n */b" {} := by decide +kernel
  have read : Trivia.read ("a/* \n */b".toList.drop 1) = .success 7 true := by cbv
  exact ⟨searched, read, by decide, parse_of_gap searched read (by decide), by decide +kernel⟩

end EcmaScript
