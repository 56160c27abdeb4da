import EcmaScript.Proofs.Stream

/-!
# Places of tokens

Every token but the end of the text takes up some characters, and reading characters moves a
position forward. The tokens that a parse consumes therefore lie one after the other in the text,
and a regular expression, which begins with a slash that was read before, ends where the next token
has not begun.
-/

namespace EcmaScript

namespace Position

theorem le_of_lt {left right : Position} (below : left < right) : left ≤ right := by
  rw [lt_iff] at below
  rw [le_iff]
  omega

theorem lt_of_lt_of_le {first second third : Position} (left : first < second)
    (right : second ≤ third) : first < third := by
  rw [lt_iff] at *
  rw [le_iff] at right
  omega

theorem lt_of_le_of_lt {first second third : Position} (left : first ≤ second)
    (right : second < third) : first < third := by
  rw [lt_iff] at *
  rw [le_iff] at left
  omega

theorem not_le_of_lt {left right : Position} (below : left < right) : ¬right ≤ left := by
  rw [lt_iff] at below
  rw [le_iff]
  omega

theorem lt_irrefl (position : Position) : ¬position < position := by
  rw [lt_iff]
  omega

theorem ne_of_lt {left right : Position} (below : left < right) : left ≠ right := by
  rintro rfl
  exact lt_irrefl left below

theorem ne_of_gt {left right : Position} (above : right < left) : left ≠ right :=
  (ne_of_lt above).symm

theorem lt_nextLine (position : Position) : position < position.nextLine := by
  rw [lt_iff]
  left
  exact Nat.lt_succ_self _

theorem lt_right (position : Position) {count : Nat} (some : 0 < count) :
    position < position.right count := by
  rw [lt_iff]
  right
  exact ⟨rfl, Nat.lt_add_of_pos_right some⟩

/-- Reading some text moves a position forward, or leaves it where it is. -/
theorem le_after (position : Position) (text : List Char) : position ≤ position.after text := by
  fun_induction after position text with
  | case1 => exact le_refl _
  | case2 position rest ih => exact le_trans (le_of_lt position.lt_nextLine) ih
  | case3 position char rest _ _ ih => exact le_trans (le_of_lt position.lt_nextLine) ih
  | case4 position char rest _ _ ih => exact le_trans (le_of_lt (position.lt_right (by simp))) ih

theorem lt_after (position : Position) {text : List Char} (nonempty : text ≠ []) :
    position < position.after text := by
  fun_cases after position text with
  | case1 => contradiction
  | case2 => exact lt_of_lt_of_le position.lt_nextLine (le_after _ _)
  | case3 => exact lt_of_lt_of_le position.lt_nextLine (le_after _ _)
  | case4 => exact lt_of_lt_of_le (position.lt_right (by simp)) (le_after _ _)

theorem le_afterLiteral (position : Position) (text : List Char) :
    position ≤ position.afterLiteral text := by
  fun_induction afterLiteral position text with
  | case1 => exact le_refl _
  | case2 position rest ih => exact le_trans (le_of_lt position.lt_nextLine) ih
  | case3 position char rest _ _ ih => exact le_trans (le_of_lt position.lt_nextLine) ih
  | case4 position char rest _ _ ih => exact le_trans (le_of_lt (position.lt_right (by simp))) ih
  | case5 position char rest _ _ ih => exact le_trans (le_of_lt (position.lt_right (by simp))) ih

theorem lt_afterLiteral (position : Position) {text : List Char} (nonempty : text ≠ []) :
    position < position.afterLiteral text := by
  fun_cases afterLiteral position text with
  | case1 => contradiction
  | case2 => exact lt_of_lt_of_le position.lt_nextLine (le_afterLiteral _ _)
  | case3 => exact lt_of_lt_of_le position.lt_nextLine (le_afterLiteral _ _)
  | case4 => exact lt_of_lt_of_le (position.lt_right (by simp)) (le_afterLiteral _ _)
  | case5 => exact lt_of_lt_of_le (position.lt_right (by simp)) (le_afterLiteral _ _)

end Position

/-- The rule for positions in a lexeme moves them forward. -/
theorem Lexeme.lt_walk (text : List Char) (position : Position) {passed : List Char}
    (nonempty : passed ≠ []) : position < walk text position passed := by
  unfold walk
  split
  · exact position.lt_afterLiteral nonempty
  · exact position.lt_after nonempty

theorem Lexeme.le_walk (text : List Char) (position : Position) (passed : List Char) :
    position ≤ walk text position passed := by
  unfold walk
  split
  · exact position.le_afterLiteral passed
  · exact position.le_after passed

theorem StringLiteral.lt_of_readFrom {quote : Char} {index length : Nat} {value text : List Char}
    {flags : Flags} {result : String × Flags}
    (read : readFrom quote index value flags text = .success length result) : index < length := by
  fun_induction readFrom quote index value flags text with
  | case4 index value flags rest _ further added _ ih =>
    have later := ih read
    omega
  | case5 =>
    cases read
    omega
  | case7 index value flags char rest _ _ _ _ ih =>
    have later := ih read
    omega
  | _ => cases read

theorem Name.le_of_readFrom {index length : Nat} {name text : List Char} {flags : Flags}
    {result : String × Flags} (read : readFrom index name flags text = .success length result) :
    index ≤ length := by
  fun_induction readFrom index name flags text with
  | case3 index name flags rest further point _ _ _ ih =>
    have later := ih read
    omega
  | case5 index name flags char rest _ _ ih =>
    have later := ih read
    omega
  | case1 | case6 =>
    cases read
    omega
  | _ => cases read

theorem Escape.pos_of_unicode {text : List Char} {length : Nat} {point : CodePoint}
    (read : unicode text = .success length point) : 0 < length := by
  have braced : ∀ code index text, bracedDigits code index text = .success length point →
      0 < length := by
    intro code index text read
    fun_induction bracedDigits code index text with
    | case3 code index char rest digit _ _ _ ih => exact ih read
    | case4 =>
      cases read
      exact Nat.succ_pos _
    | _ => cases read
  unfold unicode at read
  split at read
  · exact braced _ _ _ read
  · dsimp only at read
    split at read
    · cases read
      decide
    · cases read
  · cases read

/-- A name takes up some characters if one can begin. -/
theorem Name.pos_of_read {char : Char} {rest : List Char} {length : Nat} {result : Lexeme × Flags}
    (starts : char = '\\' ∨ isIdentifierStart char = true)
    (success : read (char :: rest) = .success length result) : 0 < length := by
  have first : ∀ {length result}, readFrom 0 [] {} (char :: rest) = .success length result →
      0 < length := by
    intro length result found
    rw [readFrom.eq_def] at found
    split at found
    · contradiction
    · split at found
      · cases found
      · rename_i further point escape
        have some := Escape.pos_of_unicode escape
        dsimp only at found
        split at found
        · have later := le_of_readFrom found
          omega
        · cases found
    · rename_i head tail notBackslash equal
      cases equal
      have start : isIdentifierStart char = true := by
        rcases starts with rfl | start
        · exact absurd rfl notBackslash
        · exact start
      rw [if_pos (by simpa [allows] using start)] at found
      have later := le_of_readFrom found
      omega
  unfold read at success
  split at success
  · cases success
  · rename_i found
    have some := first found
    split at success
    · cases success
      exact some
    · split at success <;> cases success
      exact some

theorem digitOf?_ten {char : Char} (digit : char.isDigit = true) :
    digitOf? 10 char = some (char.toNat - '0'.toNat) := by
  have small : char.toNat - '0'.toNat < 10 := by
    simp only [Char.isDigit, Bool.and_eq_true, decide_eq_true_eq] at digit
    have below : char.toNat ≤ 57 := UInt32.le_iff_toNat_le.mp digit.2
    have zero : '0'.toNat = 48 := rfl
    omega
  unfold digitOf? digitValue?
  rw [if_pos digit, Option.filter_some, if_pos (by simpa using small)]

theorem leadingDigits_ne_nil {text : List Char} (starts : NumericLiteral.startsDigit text = true) :
    leadingDigits 10 text ≠ [] := by
  cases text with
  | nil => contradiction
  | cons char rest =>
    have digit : char.isDigit = true := by simpa [NumericLiteral.startsDigit] using starts
    rw [leadingDigits, digitOf?_ten digit]
    simp

namespace NumericLiteral

theorem eq_of_accept {length other : Nat} {rest : List Char} {value : Binary64} {flags : Flags}
    {result : Binary64 × Flags} (read : accept length rest value flags = .success other result) :
    other = length := by
  have same := length_accept length rest value flags
  rw [read] at same
  exact same

/-- A decimal number takes up its first digits, and the point if it begins with one. -/
theorem pos_of_readDecimal {text : List Char} {length : Nat} {result : Binary64 × Flags}
    (isNumber : starts text = true) (read : readDecimal text = .success length result) :
    0 < length := by
  have some : 0 < (leadingDigits 10 text).length +
      (fraction (text.drop (leadingDigits 10 text).length)).1 := by
    unfold starts at isNumber
    split at isNumber
    · rename_i rest
      have point : leadingDigits 10 ('.' :: rest) = [] := by
        rw [leadingDigits]
        rfl
      rw [point]
      simp only [List.length_nil, List.drop_zero, fraction]
      omega
    · have digits := List.length_pos_iff.mpr (leadingDigits_ne_nil isNumber)
      omega
  unfold readDecimal at read
  dsimp only at read
  split at read
  · split at read
    · cases read
    · have same := eq_of_accept read
      omega
  · have same := eq_of_accept read
    omega

theorem pos_of_read {text : List Char} {length : Nat} {result : Binary64 × Flags}
    (isNumber : starts text = true) (success : read text = .success length result) :
    0 < length := by
  unfold read at success
  split at success
  · split at success
    · unfold readRadix at success
      dsimp only at success
      split at success
      · cases success
      · have same := eq_of_accept success
        omega
    · exact pos_of_readDecimal isNumber success
  · exact pos_of_readDecimal isNumber success

end NumericLiteral

/-- Only the end of the text takes up no characters. -/
theorem Lexeme.pos_of_read {text : List Char} {length : Nat} {lexeme : Lexeme} {flags : Flags}
    (success : read text = .success length (lexeme, flags)) (inside : lexeme ≠ .endOfFile) :
    0 < length ∧ text ≠ [] := by
  unfold read at success
  split at success
  · cases success
    contradiction
  · rename_i char rest
    refine ⟨?_, by simp⟩
    split at success
    · cases found : StringLiteral.read char rest with
      | failure => simp [found, Reading.map] at success
      | success other value =>
        have later := StringLiteral.lt_of_readFrom found
        simp only [found, Reading.map, Reading.success.injEq] at success
        omega
    · split at success
      · rename_i isNumber
        cases found : NumericLiteral.read (char :: rest) with
        | failure => simp [found, Reading.map] at success
        | success other value =>
          have some := NumericLiteral.pos_of_read isNumber found
          simp only [found, Reading.map, Reading.success.injEq] at success
          omega
      · split at success
        · rename_i starts
          exact Name.pos_of_read starts success
        · split at success
          · rename_i mark found
            cases success
            exact Symbol.length_text_pos mark (List.mem_of_find?_eq_some found)
          · cases success

/-- A token lies where a cursor can pass over it: it ends no earlier than it begins, and later
unless it is the end of the text. -/
structure Token.Placed (token : Token) : Prop where
  le : token.span.start ≤ token.span.stop
  lt : token.lexeme ≠ .endOfFile → token.span.start < token.span.stop

/-- A lexeme lies between the positions of the cursor before and after it. -/
theorem Scan.placed_of_lexeme {cursor after : Cursor} {next : Token} {lineBreak : Bool}
    (scanned : lexeme lineBreak cursor = .ok next after) :
    next.Placed ∧ cursor.position = next.span.start ∧ after.position = next.span.stop := by
  unfold lexeme at scanned
  dsimp only at scanned
  split at scanned
  · rename_i length item flags read
    cases scanned
    refine ⟨⟨Lexeme.le_walk _ _ _, ?_⟩, rfl, rfl⟩
    intro inside
    obtain ⟨some, nonempty⟩ := Lexeme.pos_of_read read inside
    apply Lexeme.lt_walk
    intro empty
    rcases List.take_eq_nil_iff.mp empty with none | none
    · omega
    · exact nonempty none
  · cases scanned

/-- A token that is scanned lies behind the cursor, which moves to its end. -/
theorem Scan.placed_of_token {cursor after : Cursor} {next : Token}
    (scanned : token cursor = .ok next after) :
    next.Placed ∧ cursor.position ≤ next.span.start ∧ after.position = next.span.stop := by
  simp only [token, bind, EStateM.bind] at scanned
  split at scanned
  · rename_i lineBreak middle found
    obtain ⟨placed, start, stop⟩ := placed_of_lexeme scanned
    refine ⟨placed, ?_, stop⟩
    rw [← start]
    unfold trivia at found
    split at found
    · cases found
      exact Position.le_after _ _
    · cases found
  · cases scanned

/-- A regular expression begins where its slash began, and ends no earlier than its slash. -/
theorem Scan.placed_of_regularExpression {cursor after : Cursor} {slash next : Token}
    {front : List Char} (scanned : regularExpression slash front cursor = .ok next after) :
    next.span.start = slash.span.start ∧ cursor.position ≤ next.span.stop ∧
      after.position = next.span.stop := by
  unfold regularExpression at scanned
  split at scanned
  · cases scanned
    exact ⟨rfl, Position.le_after _ _, rfl⟩
  · cases scanned

/-- Tokens lie one after the other between two positions, and each takes up some characters. -/
inductive Token.Between : Position → List Token → Position → Prop where
  | nil {low high : Position} : low ≤ high → Between low [] high
  | cons {low high : Position} {token : Token} {tokens : List Token} :
      low ≤ token.span.start → token.span.start < token.span.stop →
      Between token.span.stop tokens high → Between low (token :: tokens) high

namespace Token.Between

variable {low lower high : Position} {tokens front back : List Token}

theorem le (between : Between low tokens high) : low ≤ high := by
  induction between with
  | nil below => exact below
  | cons start wide _ ih =>
    exact Position.le_trans start (Position.le_trans (Position.le_of_lt wide) ih)

theorem of_le (below : lower ≤ low) (between : Between low tokens high) :
    Between lower tokens high := by
  cases between with
  | nil inside => exact .nil (Position.le_trans below inside)
  | cons start wide rest => exact .cons (Position.le_trans below start) wide rest

/-- A part of the tokens ends where the other part begins. -/
theorem split (between : Between low (front ++ back) high) :
    ∃ middle, Between low front middle ∧ Between middle back high := by
  induction front generalizing low with
  | nil => exact ⟨low, .nil (Position.le_refl low), between⟩
  | cons token front ih =>
    cases between with
    | cons start wide rest =>
      obtain ⟨middle, inside, outside⟩ := ih rest
      exact ⟨middle, .cons start wide inside, outside⟩

/-- A piece of the tokens lies between two positions as well. -/
theorem of_infix {piece : List Token} (between : Between low tokens high)
    (inside : piece <:+: tokens) : ∃ low high, Between low piece high := by
  obtain ⟨front, back, rfl⟩ := inside
  obtain ⟨_, before, _⟩ := between.split
  obtain ⟨_, _, own⟩ := before.split
  exact ⟨_, _, own⟩

/-- Tokens lie between the start of the first and the end of the last. -/
theorem cover (between : Between low tokens high) (nonempty : tokens ≠ []) :
    low ≤ (Token.cover tokens).start ∧ (Token.cover tokens).start < (Token.cover tokens).stop ∧
      (Token.cover tokens).stop ≤ high ∧
      Between (Token.cover tokens).start tokens (Token.cover tokens).stop := by
  induction between with
  | nil => contradiction
  | @cons low high token tokens start wide rest ih =>
    cases tokens with
    | nil =>
      have single : Token.cover [token] = token.span := rfl
      rw [single]
      exact ⟨start, wide, rest.le, .cons (Position.le_refl _) wide (.nil (Position.le_refl _))⟩
    | cons next tokens =>
      obtain ⟨below, inner, above, tight⟩ := ih (by simp)
      have same : (Token.cover (token :: next :: tokens)).stop =
          (Token.cover (next :: tokens)).stop := by
        simp [Token.cover, List.getLast?_cons_cons]
      have outer : (Token.cover (token :: next :: tokens)).start = token.span.start := rfl
      rw [same, outer]
      refine ⟨start, ?_, above, .cons (Position.le_refl _) wide (tight.of_le below)⟩
      exact Position.lt_of_lt_of_le wide
        (Position.le_trans below (Position.le_of_lt inner))

end Token.Between

namespace Point

/-- The cursor stands at the end of the lookahead. -/
structure Placed (point : Point) : Prop where
  token : point.lookahead.Placed
  cursor : point.cursor.position = point.lookahead.span.stop

theorem Advances.placed {before after : Point} (advances : before.Advances after)
    (placed : before.Placed) :
    after.Placed ∧ before.lookahead.span.start < before.lookahead.span.stop ∧
      before.lookahead.span.stop ≤ after.lookahead.span.start := by
  obtain ⟨inside, next, cursor, scanned, rfl⟩ := advances
  obtain ⟨token, behind, stop⟩ := Scan.placed_of_token scanned
  rw [placed.cursor] at behind
  exact ⟨⟨token, stop⟩, placed.token.lt inside, behind⟩

theorem Rereads.placed {before after : Point} (rereads : before.Rereads after)
    (placed : before.Placed) :
    after.Placed ∧ after.lookahead.span.start = before.lookahead.span.start := by
  obtain ⟨front, token, cursor, slash, scanned, rfl⟩ := rereads
  obtain ⟨start, behind, stop⟩ := Scan.placed_of_regularExpression scanned
  have inside : before.lookahead.lexeme ≠ .endOfFile := by
    intro ended
    simp [ended, Scan.slash?] at slash
  have wide : token.span.start < token.span.stop := by
    rw [start]
    rw [placed.cursor] at behind
    exact Position.lt_of_lt_of_le (placed.token.lt inside) behind
  exact ⟨⟨⟨Position.le_of_lt wide, fun _ => wide⟩, stop⟩, start⟩

/-- The tokens that are consumed lie between the starts of the lookaheads. -/
theorem Passes.between {before after : Point} {tokens : List Token}
    (passes : before.Passes tokens after) (placed : before.Placed) :
    after.Placed ∧
      Token.Between before.lookahead.span.start tokens after.lookahead.span.start := by
  induction passes with
  | none => exact ⟨placed, .nil (Position.le_refl _)⟩
  | advance step _ ih =>
    obtain ⟨placedNext, wide, apart⟩ := step.placed placed
    obtain ⟨placedAfter, rest⟩ := ih placedNext
    exact ⟨placedAfter, .cons (Position.le_refl _) wide (rest.of_le apart)⟩
  | reread again step _ ih =>
    obtain ⟨placedAgain, same⟩ := again.placed placed
    obtain ⟨placedNext, wide, apart⟩ := step.placed placedAgain
    obtain ⟨placedAfter, rest⟩ := ih placedNext
    rw [← same]
    exact ⟨placedAfter, .cons (Position.le_refl _) wide (rest.of_le apart)⟩

end Point

end EcmaScript
