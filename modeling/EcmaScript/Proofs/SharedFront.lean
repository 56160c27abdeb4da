import EcmaScript.Proofs.Lookahead
import EcmaScript.Proofs.Sufficiency

/-!
# Faults and the text behind them

A text that is refused is refused for what stands in front of the place at which scanning stopped,
and for at most two characters more. Every other text that begins in the same way is refused with the
same fault.
-/

namespace EcmaScript

open Parse Grammar EcmaScript.Alignment

/-- Two cursors at one place, in texts that are the same up to some offset. -/
structure Cursor.SharesUpTo (bound : Nat) (first second : Cursor) : Prop where
  offset : second.offset = first.offset
  position : second.position = first.position
  rest : SharesFront (bound - first.offset) first.rest second.rest

namespace Cursor.SharesUpTo

variable {bound : Nat} {first second : Cursor}

theorem moveBy (shared : first.SharesUpTo bound second) (walk : Position → List Char → Position)
    (length : Nat) (within : first.offset + length ≤ bound) :
    (first.moveBy walk length).SharesUpTo bound (second.moveBy walk length) := by
  have passed : second.rest.take length = first.rest.take length :=
    shared.rest.take (by omega)
  have whole : (first.rest.take length).length = length :=
    List.length_take_of_le (by have := shared.rest.length_le; omega)
  constructor
  · change second.offset + (second.rest.take length).length = _
    rw [passed, shared.offset]
    rfl
  · change walk second.position (second.rest.take length) = _
    rw [passed, shared.position]
    rfl
  · change SharesFront (bound - (first.offset + (first.rest.take length).length)) _ _
    rw [whole, ← Nat.sub_sub]
    exact shared.rest.drop length

end Cursor.SharesUpTo

namespace Scan

/-- The cursor at which an action ends, with a token or with a fault. -/
def final : EStateM.Result Fault Cursor Token → Cursor
  | .ok _ after | .error _ after => after

/-- Two actions end with the same token at one place, or with the same fault. -/
abbrev Agree (bound : Nat) :
    EStateM.Result Fault Cursor Token → EStateM.Result Fault Cursor Token → Prop :=
  EndAlike (fun token other => other = token) (Cursor.SharesUpTo bound) fun fault other =>
    other = fault

theorem offset_lexeme (cursor : Cursor) (lineBreak : Bool) :
    (final (lexeme lineBreak cursor)).offset =
      cursor.offset + (Lexeme.read cursor.rest).length := by
  have within := Lexeme.length_read_le cursor.rest
  unfold lexeme
  cases found : Lexeme.read cursor.rest with
  | success | failure =>
    rw [found] at within
    exact Cursor.offset_moveBy within

theorem offset_regularExpression (cursor : Cursor) (slash : Token) (front : List Char) :
    (final (regularExpression slash front cursor)).offset =
      cursor.offset + (RegularExpression.read front cursor.rest).length := by
  have within := RegularExpression.length_read_le front cursor.rest
  unfold regularExpression
  cases found : RegularExpression.read front cursor.rest with
  | success | failure =>
    rw [found] at within
    exact Cursor.offset_moveBy within

/-- Tokens come after trivia. -/
theorem final_token (cursor : Cursor) :
    (∃ lineBreak, Trivia.read cursor.rest = .success (Trivia.read cursor.rest).length lineBreak ∧
      token cursor = lexeme lineBreak (cursor.pass (Trivia.read cursor.rest).length)) ∨
    ∃ cause place,
      Trivia.read cursor.rest = .failure (Trivia.read cursor.rest).length cause place ∧
      token cursor = .error ⟨cause, (cursor.pass place).position⟩
        (cursor.pass (Trivia.read cursor.rest).length) := by
  simp only [token, bind, EStateM.bind, trivia]
  cases Trivia.read cursor.rest with
  | success length lineBreak => exact .inl ⟨lineBreak, rfl, rfl⟩
  | failure length cause place => exact .inr ⟨cause, place, rfl, rfl⟩

theorem offset_trivia_le (cursor : Cursor) :
    cursor.offset + (Trivia.read cursor.rest).length ≤ (final (token cursor)).offset := by
  have within := Trivia.length_readFrom_le .between 0 false cursor.rest
  rw [Nat.zero_add] at within
  have passed : (cursor.pass (Trivia.read cursor.rest).length).offset = _ :=
    Cursor.offset_moveBy within
  rcases final_token cursor with ⟨lineBreak, -, same⟩ | ⟨cause, place, -, same⟩
  · rw [same, offset_lexeme, passed]
    exact Nat.le_add_right _ _
  · rw [same]
    exact Nat.le_of_eq passed.symm

variable {bound : Nat} {first second : Cursor}

theorem agree_lexeme (shared : first.SharesUpTo bound second) (lineBreak : Bool)
    (within : (final (lexeme lineBreak first)).offset + 2 ≤ bound) :
    Agree bound (lexeme lineBreak first) (lexeme lineBreak second) := by
  rw [offset_lexeme] at within
  have same := Lexeme.read_shared shared.rest (by omega)
  have walk := Lexeme.walk_shared shared.rest (by omega)
  have inside := Lexeme.isLexical_read first.rest
  unfold lexeme
  dsimp only
  rw [same, walk]
  cases found : Lexeme.read first.rest with
  | success length read =>
    rw [found] at within
    dsimp only [Reading.length] at within
    have moved := shared.moveBy (Lexeme.walk first.rest) length (by omega)
    dsimp only
    rw [shared.position, shared.offset, moved.position, moved.offset, shared.rest.take (by omega)]
    exact .ok rfl moved
  | failure length cause place =>
    rw [found] at within inside
    dsimp only [Reading.length] at within
    have place := shared.moveBy (Lexeme.walk first.rest) place
      (by have := inside.2; omega)
    dsimp only
    rw [place.position]
    exact .error rfl

theorem agree_token (shared : first.SharesUpTo bound second)
    (within : (final (token first)).offset + 2 ≤ bound) :
    Agree bound (token first) (token second) := by
  have between := offset_trivia_le first
  have same := Trivia.read_shared shared.rest (by omega)
  have inside := Trivia.isLexical_read first.rest
  have passed := shared.moveBy Position.after ((Trivia.read first.rest).length) (by omega)
  rcases final_token first with ⟨lineBreak, found, run⟩ | ⟨cause, place, found, run⟩
  · rcases final_token second with ⟨other, foundToo, runToo⟩ | ⟨_, _, foundToo, _⟩
    · rw [same, found] at foundToo
      cases foundToo
      rw [run] at within ⊢
      rw [runToo, same]
      exact agree_lexeme passed lineBreak within
    · rw [same, found] at foundToo
      cases foundToo
  · rcases final_token second with ⟨_, foundToo, _⟩ | ⟨_, _, foundToo, runToo⟩
    · rw [same, found] at foundToo
      cases foundToo
    · rw [same, found] at foundToo
      cases foundToo
      rw [found] at inside
      have moved := shared.moveBy Position.after place
        (by have := inside.2; omega)
      rw [run, runToo, same]
      have position : (second.pass place).position = (first.pass place).position :=
        moved.position
      rw [position]
      exact .error rfl

theorem agree_regularExpression (shared : first.SharesUpTo bound second) (slash : Token)
    (front : List Char)
    (within : (final (regularExpression slash front first)).offset + 2 ≤ bound) :
    Agree bound (regularExpression slash front first) (regularExpression slash front second) := by
  rw [offset_regularExpression] at within
  have same : RegularExpression.read front second.rest = RegularExpression.read front first.rest :=
    RegularExpression.read_shared shared.rest (by omega)
  unfold regularExpression
  rw [same]
  cases found : RegularExpression.read front first.rest with
  | success length read =>
    rw [found] at within
    dsimp only [Reading.length] at within
    have moved := shared.moveBy Position.after length (by omega)
    have position : (second.pass length).position = (first.pass length).position := moved.position
    have offset : (second.pass length).offset = (first.pass length).offset := moved.offset
    dsimp only
    rw [position, offset, shared.rest.take (by omega)]
    exact .ok rfl moved
  | failure => exact .error rfl

theorem offset_token_le (cursor : Cursor) : cursor.offset ≤ (final (token cursor)).offset :=
  Nat.le_trans (Nat.le_add_right _ _) (offset_trivia_le cursor)

theorem offset_regularExpression_le (cursor : Cursor) (slash : Token) (front : List Char) :
    cursor.offset ≤ (final (regularExpression slash front cursor)).offset := by
  rw [offset_regularExpression]
  exact Nat.le_add_right _ _

end Scan

/-- Two parses are level at one place of texts that are the same up to some offset. -/
structure Point.SharesUpTo (bound : Nat) (first second : Point) : Prop where
  cursor : first.cursor.SharesUpTo bound second.cursor
  lookahead : second.lookahead = first.lookahead
  consumedEnd : second.consumedEnd = first.consumedEnd

/-- The parses of two texts that are the same up to some offset, as far as they stay two characters
away from it. -/
def Pairing.sharesUpTo (bound : Nat) (returns : Bool) : Pairing where
  left := id
  right := id
  mate := id
  right_mate := id_mate
  firstReturns := returns
  secondReturns := returns
  Reached _ := True
  Ahead point := point.cursor.offset + 2 ≤ bound
  Doomed _ point := point.cursor.offset + 2 ≤ bound
  Level first second := first.SharesUpTo bound second
  reached_of_advances _ _ := trivial
  reached_of_rereads _ _ := trivial
  ahead_of_advances := by
    rintro before _ - ⟨-, next, cursor, scanned, rfl⟩ ahead
    have later := Scan.offset_token_le before.cursor
    rw [scanned] at later
    exact Nat.le_trans (Nat.add_le_add_right later 2) ahead
  ahead_of_rereads := by
    rintro before _ - ⟨front, next, cursor, -, scanned, rfl⟩ ahead
    have later := Scan.offset_regularExpression_le before.cursor before.lookahead front
    rw [scanned] at later
    exact Nat.le_trans (Nat.add_le_add_right later 2) ahead
  ahead_of_doomed := by
    rintro before fault _ - fails doomed
    cases fails with
    | here => exact doomed
    | token _ scanned =>
      have later := Scan.offset_token_le before.cursor
      rw [scanned] at later
      exact Nat.le_trans (Nat.add_le_add_right later 2) doomed
    | @regularExpression front _ _ scanned =>
      have later := Scan.offset_regularExpression_le before.cursor before.lookahead front
      rw [scanned] at later
      exact Nat.le_trans (Nat.add_le_add_right later 2) doomed
  matches_of_level level := by
    rw [level.lookahead]
    exact ⟨rfl, rfl, rfl, rfl⟩
  consumedEnd_of_level level := level.consumedEnd.symm
  advances := by
    rintro first second _ level - ⟨inside, next, cursor, scanned, rfl⟩ ahead
    have agree := Scan.agree_token level.cursor (by rw [scanned]; exact ahead)
    obtain ⟨_, last, scannedToo, rfl, shared⟩ := agree.exists_ok scanned
    refine ⟨_, ⟨level.lookahead ▸ inside, _, last, scannedToo, rfl⟩, shared, rfl, ?_⟩
    exact congrArg (·.span.stop) level.lookahead
  fault_of_token := by
    intro first second fault cursor level _ scanned doomed
    have agree := Scan.agree_token level.cursor (by rw [scanned]; exact doomed)
    obtain ⟨_, last, scannedToo, rfl⟩ := agree.exists_error scanned
    exact ⟨_, last, scannedToo, rfl, rfl⟩
  rereads := by
    rintro first second _ level - ⟨front, next, cursor, slash, scanned, rfl⟩ ahead
    have agree := Scan.agree_regularExpression level.cursor first.lookahead front
      (by rw [scanned]; exact ahead)
    obtain ⟨_, last, scannedToo, rfl, shared⟩ := agree.exists_ok scanned
    rw [← level.lookahead] at scannedToo
    refine ⟨_, ⟨front, _, last, level.lookahead ▸ slash, scannedToo, rfl⟩, shared, rfl, ?_⟩
    exact level.consumedEnd
  fault_of_regularExpression := by
    intro first second front fault cursor level _ _ scanned doomed
    have agree := Scan.agree_regularExpression level.cursor first.lookahead front
      (by rw [scanned]; exact doomed)
    obtain ⟨_, last, scannedToo, rfl⟩ := agree.exists_error scanned
    rw [← level.lookahead] at scannedToo
    exact ⟨_, last, scannedToo, rfl, rfl⟩

/-- The alignment of the parses of two texts that are the same up to some offset. -/
def Alignment.sharesUpTo (bound : Nat) (returns : Bool) : Alignment :=
  (Pairing.sharesUpTo bound returns).alignment

/-- A first line that is passed over ends at the same place in both texts. -/
theorem Cursor.passHashbang_shared {source other : String} {bound : Nat}
    (shared : SharesFront bound source.toList other.toList)
    (within : (atStart source).passHashbang.offset + 2 ≤ bound) :
    (atStart source).passHashbang.SharesUpTo bound (atStart other).passHashbang := by
  have start : (atStart source).SharesUpTo bound (atStart other) := ⟨rfl, rfl, shared⟩
  by_cases hashbang : ['#', '!'] <+: source.toList
  · have hashbangToo : ['#', '!'] <+: other.toList :=
      (Symbol.prefix_iff_of_shared shared (Nat.le_trans (Nat.le_add_left 2 _) within)).mpr hashbang
    obtain ⟨rest, found⟩ := hashbang
    obtain ⟨others, foundToo⟩ := hashbangToo
    have passed : ∀ {source : String} {rest : List Char}, ['#', '!'] ++ rest = source.toList →
        (atStart source).passHashbang = (atStart source).pass
          (source.toList.takeWhile fun char => !isLineTerminator char).length := by
      intro source rest found
      unfold passHashbang atStart
      rw [← found]
      rfl
    rw [passed found] at within ⊢
    rw [passed foundToo]
    have length : (source.toList.takeWhile fun char => !isLineTerminator char).length ≤
        source.toList.length := (List.takeWhile_prefix _).length_le
    have offset : ((atStart source).pass
        (source.toList.takeWhile fun char => !isLineTerminator char).length).offset = _ :=
      offset_moveBy length
    rw [offset] at within
    rw [shared.takeWhile (by omega)]
    exact start.moveBy Position.after _ (by omega)
  · have plainToo : ¬['#', '!'] <+: other.toList := fun found => hashbang
      ((Symbol.prefix_iff_of_shared shared (Nat.le_trans (Nat.le_add_left 2 _) within)).mp found)
    rw [passHashbang_of_plain hashbang, passHashbang_of_plain plainToo]
    exact start

theorem State.opening_shared {source other : String} {options : Options} {bound : Nat}
    (shared : SharesFront bound source.toList other.toList)
    (within : (ofSource source options).opening.offset + 2 ≤ bound) :
    (ofSource source options).opening.SharesUpTo bound (ofSource other options).opening := by
  cases hashbang : options.allowHashbang with
  | false =>
    rw [opening, opening, ofSource, ofSource]
    dsimp only
    rw [hashbang]
    exact ⟨rfl, rfl, shared⟩
  | true =>
    rw [opening, ofSource] at within ⊢
    dsimp only at within ⊢
    rw [hashbang] at within ⊢
    rw [opening, ofSource]
    dsimp only
    rw [hashbang]
    exact Cursor.passHashbang_shared shared within

section

variable {source other : String} {options : Options} {bound : Nat}

theorem State.related_begun (phase : Prop) {token : Token} {cursor last : Cursor}
    (shared : cursor.SharesUpTo bound last) :
    (Alignment.sharesUpTo bound options.allowReturnOutsideFunction).Related phase
      ((ofSource source options).begun token cursor) ((ofSource other options).begun token last) where
  reached := trivial
  points := .inl ⟨shared, rfl, rfl⟩
  context := rfl
  labels := rfl
  returns := rfl
  firstReturns := rfl
  secondReturns := rfl

/-- A text that is refused, and every other text that begins with the same characters, up to two
behind the cursor, are refused with the same fault. -/
theorem parse_of_shared_front {fault : Fault} {after : State}
    (refused : (State.ofSource source options).parse = (.error fault, after))
    (within : after.cursor.offset + 2 ≤ source.length)
    (same : source.toList.take (after.cursor.offset + 2) =
      other.toList.take (after.cursor.offset + 2)) :
    parse other options = .error fault := by
  have shared : SharesFront (after.cursor.offset + 2) source.toList other.toList :=
    .of_take (by rwa [String.length_toList]) same
  have refusedToo : parse source options = .error fault := by rw [parse, refused]
  have possible := possible_of_parse refusedToo
  have enough : source.length + 2 ≤ max source.length other.length + 2 := by omega
  have enoughToo : other.length + 2 ≤ max source.length other.length + 2 := by omega
  rw [parse_eq_of_budget enoughToo]
  rcases State.exists_fault_of_parse refused with ⟨scanned, -⟩ | ⟨token, cursor, scanned, run⟩
  · have opening := Scan.offset_token_le (State.ofSource source options).opening
    rw [scanned] at opening
    have agree := Scan.agree_token (State.opening_shared shared (Nat.add_le_add_right opening 2))
      (by rw [scanned]; exact Nat.le_refl _)
    obtain ⟨_, last, scannedToo, rfl⟩ := agree.exists_error scanned
    rw [scannedToo]
  · have follows := follows_topLevel
      (σ := .sharesUpTo (after.cursor.offset + 2) options.allowReturnOutsideFunction)
      (Nonterminals.follows_ofBudget enough) rfl enough
    have ahead : cursor.offset + 2 ≤ after.cursor.offset + 2 :=
      follows.ahead trivial run possible (Nat.le_refl _) True
    have opening := Scan.offset_token_le (State.ofSource source options).opening
    rw [scanned] at opening
    have agree := Scan.agree_token
      (State.opening_shared shared (Nat.le_trans (Nat.add_le_add_right opening 2) ahead))
      (by rw [scanned]; exact ahead)
    obtain ⟨_, cursorToo, scannedToo, rfl, sharedCursor⟩ := agree.exists_ok scanned
    obtain ⟨result, last, runToo, cause, position⟩ := follows.error
      (State.related_begun (True ∨ False) sharedCursor) run possible (Nat.le_refl _)
    obtain rfl : result = fault := by
      cases result
      cases fault
      exact congrArg₂ Fault.mk cause position.symm
    rw [scannedToo]
    dsimp only
    rw [runToo]

end

theorem exists_fault_of_toBool {source : String} {options : Options}
    (refused : (parse source options).toBool = false) :
    ∃ fault, parse source options = .error fault := by
  cases result : parse source options with
  | error fault => exact ⟨fault, rfl⟩
  | ok program => simp [result, Except.toBool] at refused

/-- An escape is faulty behind an escape that could have been the second half of a pair. What stands
more than two characters behind the fault does not matter. -/
theorem fault_of_escapes :
    ∃ fault after,
      (State.ofSource "'\\ud800\\ud800\\xg'" {}).parse = (.error fault, after) ∧
        after.cursor.offset = 15 ∧ parse "'\\ud800\\ud800\\xg'; more" {} = .error fault := by
  obtain ⟨fault, refused⟩ := exists_fault_of_toBool
    (by decide +kernel : (parse "'\\ud800\\ud800\\xg'" {}).toBool = false)
  have offset : (State.ofSource "'\\ud800\\ud800\\xg'" {}).parse.2.cursor.offset = 15 := by
    decide +kernel
  refine ⟨fault, _, Prod.ext refused rfl, offset, ?_⟩
  refine parse_of_shared_front (Prod.ext refused rfl) ?_ ?_
  · rw [offset]
    decide
  · rw [offset]
    decide

end EcmaScript
