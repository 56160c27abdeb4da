import EcmaScript.Proofs.ScriptFollowing

/-!
# Text in front of the first line

When some characters are put in front of a text, what stands on the first line moves to the right
and everything else stays where it is. Scanning moves along, and so does a whole parse, which takes
the same steps and fails in the same way.
-/

namespace EcmaScript

namespace Position

/-- The position, when some characters have been put in front of the first line. -/
def inFront (count : Nat) (position : Position) : Position :=
  if position.line = 1 then position.right count else position

variable {count : Nat} {position : Position}

theorem inFront_right {further : Nat} :
    (position.inFront count).right further = (position.right further).inFront count := by
  unfold inFront
  change _ = if position.line = 1 then _ else _
  split
  · rw [right_right, right_right, Nat.add_comm]
  · rfl

theorem inFront_nextLine (onLine : 1 ≤ position.line) :
    (position.inFront count).nextLine = position.nextLine.inFront count := by
  have later : position.nextLine.line ≠ 1 := by
    change position.line + 1 ≠ 1
    omega
  rw [inFront, inFront, if_neg later]
  split <;> rfl

/-- Text is as long behind other text. -/
theorem after_inFront (onLine : 1 ≤ position.line) (text : List Char) :
    (position.inFront count).after text = (position.after text).inFront count ∧
      1 ≤ (position.after text).line := by
  have later : ∀ position : Position, 1 ≤ position.nextLine.line := fun _ => Nat.le_add_left 1 _
  fun_induction after position text with
  | case1 => simpa using onLine
  | case2 position rest ih =>
    rw [after, inFront_nextLine onLine]
    exact ih (later position)
  | case3 position char rest alone terminator ih =>
    have moved := ih (later position)
    rw [← inFront_nextLine onLine] at moved
    have step : (position.inFront count).after (char :: rest) =
        (position.inFront count).nextLine.after rest := by
      rw [after]
      · rw [if_pos terminator]
      · exact alone
    rw [step]
    exact moved
  | case4 position char rest alone plain ih =>
    have moved := ih onLine
    rw [← inFront_right] at moved
    have step : (position.inFront count).after (char :: rest) =
        ((position.inFront count).right 1).after rest := by
      rw [after]
      · rw [if_neg plain]
      · exact alone
    rw [step]
    exact moved

theorem afterLiteral_inFront (onLine : 1 ≤ position.line) (text : List Char) :
    (position.inFront count).afterLiteral text = (position.afterLiteral text).inFront count ∧
      1 ≤ (position.afterLiteral text).line := by
  have later : ∀ position : Position, 1 ≤ position.nextLine.line := fun _ => Nat.le_add_left 1 _
  fun_induction afterLiteral position text with
  | case1 => exact ⟨rfl, onLine⟩
  | case2 position rest ih =>
    rw [afterLiteral, inFront_nextLine onLine]
    exact ih (later position)
  | case3 position char rest alone terminator ih =>
    have moved := ih (later position)
    rw [← inFront_nextLine onLine] at moved
    have step : (position.inFront count).afterLiteral ('\\' :: char :: rest) =
        (position.inFront count).nextLine.afterLiteral rest := by
      rw [afterLiteral]
      · rw [if_pos terminator]
      · exact alone
    rw [step]
    exact moved
  | case4 position char rest alone plain ih =>
    have moved := ih onLine
    rw [← inFront_right] at moved
    have step : (position.inFront count).afterLiteral ('\\' :: char :: rest) =
        ((position.inFront count).right 2).afterLiteral rest := by
      rw [afterLiteral]
      · rw [if_neg plain]
      · exact alone
    rw [step]
    exact moved
  | case5 position char rest pair escape ih =>
    have moved := ih onLine
    rw [← inFront_right] at moved
    have step : (position.inFront count).afterLiteral (char :: rest) =
        ((position.inFront count).right 1).afterLiteral rest := by
      rw [afterLiteral]
      · exact pair
      · exact escape
    rw [step]
    exact moved

end Position

theorem Lexeme.walk_inFront {count : Nat} {position : Position} (text passed : List Char)
    (onLine : 1 ≤ position.line) :
    walk text (position.inFront count) passed = (walk text position passed).inFront count ∧
      1 ≤ (walk text position passed).line := by
  unfold walk
  split
  · exact Position.afterLiteral_inFront onLine passed
  · exact Position.after_inFront onLine passed

/-- Cursors with the same text ahead, the second of which has more of the first line behind it. -/
structure Cursor.InFront (count : Nat) (first second : Cursor) : Prop where
  onLine : 1 ≤ first.position.line
  rest : second.rest = first.rest
  position : second.position = first.position.inFront count

namespace Cursor.InFront

variable {count : Nat} {first second : Cursor}

theorem moveBy {walk : Position → List Char → Position} (related : InFront count first second)
    (moves : ∀ {position : Position} (passed : List Char), 1 ≤ position.line →
      walk (position.inFront count) passed = (walk position passed).inFront count ∧
        1 ≤ (walk position passed).line) (length : Nat) :
    InFront count (first.moveBy walk length) (second.moveBy walk length) := by
  obtain ⟨moved, onLine⟩ := moves (first.rest.take length) related.onLine
  constructor
  · exact onLine
  · exact congrArg (List.drop length) related.rest
  · change walk second.position (second.rest.take length) = _
    rw [related.rest, related.position]
    exact moved

theorem pass (related : InFront count first second) (length : Nat) :
    InFront count (first.pass length) (second.pass length) :=
  related.moveBy (fun passed onLine => Position.after_inFront onLine passed) length

end Cursor.InFront

/-- Tokens that match when the first one has been moved along its line. -/
abbrev Token.MatchesInFront (count : Nat) : Token → Token → Prop :=
  Token.Matches (·.inFront count) id

/-- The results of two actions of the scanner match, or their faults do. -/
abbrev Scan.Results (count : Nat) :
    EStateM.Result Fault Cursor Token → EStateM.Result Fault Cursor Token → Prop :=
  EndAlike (Token.MatchesInFront count) (Cursor.InFront count) fun fault other =>
    other.cause = fault.cause ∧ fault.position.inFront count = other.position

namespace Scan

variable {count : Nat} {first second : Cursor}

theorem results_lexeme (related : first.InFront count second) (lineBreak : Bool) :
    Results count (lexeme lineBreak first) (lexeme lineBreak second) := by
  unfold lexeme
  dsimp only
  rw [related.rest]
  have moved := related.moveBy fun {_} passed onLine =>
    Lexeme.walk_inFront first.rest passed onLine
  cases Lexeme.read first.rest with
  | success length read =>
    refine .ok ⟨rfl, rfl, rfl, ?_⟩ (moved length)
    simp only [Span.relocate, id_eq, related.position, (moved length).position]
  | failure length cause place => exact .error ⟨rfl, (moved place).position.symm⟩

theorem results_token (related : first.InFront count second) :
    Results count (token first) (token second) := by
  simp only [token, bind, EStateM.bind, trivia]
  rw [related.rest]
  cases Trivia.read first.rest with
  | success length lineBreak => exact results_lexeme (related.pass length) lineBreak
  | failure length cause place => exact .error ⟨rfl, (related.pass place).position.symm⟩

theorem results_regularExpression (related : first.InFront count second) {slash other : Token}
    (same : slash.MatchesInFront count other) (front : List Char) :
    Results count (regularExpression slash front first)
      (regularExpression other front second) := by
  have start : other.span.start = slash.span.start.inFront count := same.start.symm
  unfold regularExpression
  rw [related.rest]
  cases RegularExpression.read front first.rest with
  | success length read =>
    refine .ok ⟨rfl, ?_, ?_, ?_⟩ (related.pass length)
    · rw [same.flags]
    · dsimp only
      rw [same.text]
    · simp only [Span.relocate, id_eq, start, (related.pass length).position]
  | failure length cause place => exact .error ⟨rfl, start.symm⟩

end Scan

/-- Two parses are level when the second has the same text ahead and more of the first line behind.
-/
structure Point.InFront (count : Nat) (first second : Point) : Prop where
  cursor : first.cursor.InFront count second.cursor
  lookahead : first.lookahead.MatchesInFront count second.lookahead
  consumedEnd : second.consumedEnd = first.consumedEnd.inFront count

/-- The parse of a text, and that of the same text with something in front of its first line. -/
def Pairing.inFront (count : Nat) (firstReturns secondReturns : Bool) : Pairing where
  left := (·.inFront count)
  right := id
  mate := (·.inFront count)
  right_mate _ := rfl
  firstReturns := firstReturns
  secondReturns := secondReturns
  Reached _ := True
  Ahead _ := True
  Doomed _ _ := True
  Level first second := first.InFront count second
  reached_of_advances _ _ := trivial
  reached_of_rereads _ _ := trivial
  ahead_of_advances _ _ _ := trivial
  ahead_of_rereads _ _ _ := trivial
  ahead_of_doomed _ _ _ := trivial
  matches_of_level level := level.lookahead
  consumedEnd_of_level level := level.consumedEnd.symm
  advances := by
    rintro first second _ level - ⟨inside, next, cursor, scanned, rfl⟩ -
    obtain ⟨other, last, scannedToo, same, related⟩ :=
      (Scan.results_token level.cursor).exists_ok scanned
    refine ⟨_, ⟨level.lookahead.lexeme ▸ inside, other, last, scannedToo, rfl⟩, ?_⟩
    exact ⟨related, same, (congrArg Span.stop level.lookahead.span).symm⟩
  fault_of_token := by
    intro first second fault cursor level _ scanned _
    exact (Scan.results_token level.cursor).exists_error scanned
  rereads := by
    rintro first second _ level - ⟨front, next, cursor, slash, scanned, rfl⟩ -
    obtain ⟨other, last, scannedToo, same, related⟩ :=
      (Scan.results_regularExpression level.cursor level.lookahead front).exists_ok scanned
    refine ⟨_, ⟨front, other, last, level.lookahead.lexeme ▸ slash, scannedToo, rfl⟩, ?_⟩
    exact ⟨related, same, level.consumedEnd⟩
  fault_of_regularExpression := by
    intro first second front fault cursor level _ _ scanned _
    exact (Scan.results_regularExpression level.cursor level.lookahead front).exists_error scanned

/-- The alignment of the parse of a text with that of the text with something in front. -/
def Alignment.inFront (count : Nat) (firstReturns secondReturns : Bool) : Alignment :=
  (Pairing.inFront count firstReturns secondReturns).alignment

end EcmaScript
