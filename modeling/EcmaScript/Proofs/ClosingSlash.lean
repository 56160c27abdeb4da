import EcmaScript.Proofs.InLine
import EcmaScript.Proofs.Neighbours
import EcmaScript.Proofs.WordText

/-!
# Where a regular expression ends

The slash that closes a regular expression is the first one behind the opening slash that is neither
escaped nor in a class, on the same line. What makes it the closing one is said of the characters of
the text, without the state in which they are read. A slash that was scanned is read again as the
regular expression up to there, with the flags behind it.
-/

namespace EcmaScript

namespace RegularExpression

/-! ### Places of a text -/

/-- The character at a place of a text is escaped: one before it is a backslash that is not escaped
itself. -/
def isEscaped (text : List Char) : Nat → Bool
  | 0 => false
  | index + 1 => text[index]? == some '\\' && !isEscaped text index

/-- A character is at a place of a text, and not escaped. -/
def HasPlain (text : List Char) (index : Nat) (char : Char) : Prop :=
  text[index]? = some char ∧ isEscaped text index = false

/-- A place of a text is in a class: a bracket before it opens one, and none closes it in between.
-/
def IsInClass (text : List Char) (index : Nat) : Prop :=
  ∃ opening < index, HasPlain text opening '[' ∧
    ∀ closing < index, opening < closing → ¬HasPlain text closing ']'

/-- At a place of a text is a slash that is neither escaped nor in a class. -/
def Closes (text : List Char) (index : Nat) : Prop :=
  HasPlain text index '/' ∧ ¬IsInClass text index

instance (text : List Char) (index : Nat) (char : Char) : Decidable (HasPlain text index char) :=
  inferInstanceAs (Decidable (_ ∧ _))

instance (text : List Char) (index : Nat) : Decidable (IsInClass text index) :=
  inferInstanceAs (Decidable (∃ opening, opening < index ∧ _))

instance (text : List Char) (index : Nat) : Decidable (Closes text index) :=
  inferInstanceAs (Decidable (_ ∧ _))

/-- The beginning of a text up to the first slash that closes a pattern. No line ends in it. -/
structure IsBody (text body : List Char) : Prop where
  isPrefix : body <+: text
  closes : Closes text body.length
  first : ∀ index < body.length, ¬Closes text index
  inLine : ∀ char ∈ body, isLineTerminator char = false

variable {text : List Char} {index : Nat}

/-- There is one first slash. -/
theorem IsBody.eq {body other : List Char} (left : IsBody text body) (right : IsBody text other) :
    body = other := by
  have same : body.length = other.length := by
    rcases Nat.lt_trichotomy body.length other.length with less | same | more
    · exact absurd left.closes (right.first _ less)
    · exact same
    · exact absurd right.closes (left.first _ more)
  rw [List.prefix_iff_eq_take.mp left.isPrefix, List.prefix_iff_eq_take.mp right.isPrefix, same]

/-- A class is open behind a character if it opens one, or if one is open and it does not close it.
-/
theorem isInClass_succ : IsInClass text (index + 1) ↔
    HasPlain text index '[' ∨ (IsInClass text index ∧ ¬HasPlain text index ']') := by
  constructor
  · rintro ⟨opening, before, isOpening, stays⟩
    rcases Nat.lt_or_eq_of_le (Nat.le_of_lt_succ before) with less | rfl
    · exact .inr ⟨⟨opening, less, isOpening, fun closing before =>
        stays closing (Nat.lt_succ_of_lt before)⟩, stays index (Nat.lt_succ_self _) less⟩
    · exact .inl isOpening
  · rintro (isOpening | ⟨⟨opening, before, isOpening, stays⟩, here⟩)
    · exact ⟨index, Nat.lt_succ_self _, isOpening, fun closing before after => by omega⟩
    · refine ⟨opening, Nat.lt_succ_of_lt before, isOpening, fun closing before after => ?_⟩
      rcases Nat.lt_or_eq_of_le (Nat.le_of_lt_succ before) with less | rfl
      · exact stays closing less after
      · exact here

/-- The closing slash comes behind the body. -/
theorem IsBody.text_eq {body : List Char} (isBody : IsBody text body) :
    text = body ++ '/' :: text.drop (body.length + 1) := by
  obtain ⟨rest, rfl⟩ := isBody.isPrefix
  have slash : rest[0]? = some '/' := by
    have here := isBody.closes.1.1
    rwa [List.getElem?_append_right (Nat.le_refl _), Nat.sub_self] at here
  cases rest with
  | nil => cases slash
  | cons char rest =>
    cases slash
    rw [List.drop_length_add_append]
    rfl

/-- A text has been read up to a place, and no closing slash was found. -/
structure IsRead (text : List Char) (index : Nat) (isInClass : Bool) : Prop where
  plain : isEscaped text index = false
  inClass : IsInClass text index ↔ isInClass = true
  none : ∀ before < index, ¬Closes text before
  inLine : ∀ char ∈ text.take index, isLineTerminator char = false

namespace IsRead

variable {isInClass : Bool} (isRead : IsRead text index isInClass) {char : Char}
include isRead

theorem hasPlain_iff (here : text[index]? = some char) (other : Char) :
    HasPlain text index other ↔ char = other := by
  rw [HasPlain, here, isRead.plain]
  simp

/-- The slash here closes the pattern if no class is open. -/
theorem closes_iff (here : text[index]? = some char) :
    Closes text index ↔ char = '/' ∧ isInClass = false := by
  rw [Closes, isRead.hasPlain_iff here, isRead.inClass, Bool.not_eq_true]

theorem inLine_succ (here : text[index]? = some char) (plain : isLineTerminator char = false) :
    ∀ other ∈ text.take (index + 1), isLineTerminator other = false := by
  intro other member
  rw [List.take_add_one, here, Option.toList_some, List.mem_append, List.mem_singleton] at member
  rcases member with before | rfl
  · exact isRead.inLine other before
  · exact plain

theorem none_succ (goesOn : ¬Closes text index) : ∀ before < index + 1, ¬Closes text before := by
  intro before less
  rcases Nat.lt_or_eq_of_le (Nat.le_of_lt_succ less) with less | rfl
  · exact isRead.none before less
  · exact goesOn

/-- One more character is read that is no backslash. -/
theorem succ (here : text[index]? = some char) (notSlash : char ≠ '\\')
    (plain : isLineTerminator char = false) (goesOn : ¬(char = '/' ∧ isInClass = false)) :
    IsRead text (index + 1) (char == '[' || (isInClass && char != ']')) where
  plain := by simp [isEscaped, here, notSlash]
  inClass := by
    rw [isInClass_succ, isRead.hasPlain_iff here, isRead.hasPlain_iff here, isRead.inClass]
    simp
  none := isRead.none_succ (mt (isRead.closes_iff here).mp goesOn)
  inLine := isRead.inLine_succ here plain

/-- No slash behind a backslash closes the pattern. -/
theorem none_escape (here : text[index]? = some '\\') :
    ∀ before < index + 2, ¬Closes text before := by
  have escaped : isEscaped text (index + 1) = true := by
    simp [isEscaped, here, isRead.plain]
  have goesOn : ¬Closes text index := by
    rw [isRead.closes_iff here]
    exact fun closes => absurd closes.1 (by decide)
  intro before less closes
  rcases Nat.lt_or_eq_of_le (Nat.le_of_lt_succ less) with less | rfl
  · exact isRead.none_succ goesOn before less closes
  · rw [Closes, HasPlain, escaped] at closes
    exact Bool.false_ne_true closes.1.2.symm

/-- A backslash and the character that it escapes are read. -/
theorem escape (here : text[index]? = some '\\') (next : text[index + 1]? = some char)
    (plain : isLineTerminator char = false) : IsRead text (index + 2) isInClass := by
  have escaped : isEscaped text (index + 1) = true := by
    simp [isEscaped, here, isRead.plain]
  have notPlain (other : Char) : ¬HasPlain text (index + 1) other := by
    rw [HasPlain, escaped]
    simp
  have notHere {other : Char} (ne : '\\' ≠ other) : ¬HasPlain text index other :=
    mt (isRead.hasPlain_iff here other).mp ne
  have inLineHere := isRead.inLine_succ here rfl
  refine ⟨?_, ?_, ?_, ?_⟩
  · simp [isEscaped, here, isRead.plain]
  · rw [isInClass_succ, isInClass_succ, isRead.inClass]
    simp [notPlain, notHere]
  · exact isRead.none_escape here
  · intro other member
    rw [List.take_add_one, next, Option.toList_some, List.mem_append, List.mem_singleton] at member
    rcases member with before | rfl
    · exact inLineHere other before
    · exact plain

/-- The slash here ends the body. -/
theorem isBody (closes : Closes text index) :
    IsBody text (text.take index) ∧ (text.take index).length = index := by
  have within : index < text.length := by
    obtain ⟨⟨slash, -⟩, -⟩ := closes
    exact (List.getElem?_eq_some_iff.mp slash).1
  have long : (text.take index).length = index := List.length_take_of_le (Nat.le_of_lt within)
  refine ⟨⟨List.take_prefix _ _, ?_, ?_, isRead.inLine⟩, long⟩
  · rw [long]
    exact closes
  · rw [long]
    exact isRead.none

end IsRead

end RegularExpression

namespace Scan

variable {cursor behind : Cursor} {slash : Token} {front : List Char}

/-- What is known of a slash that has been scanned: its text is the slash with the beginning of the
pattern in it, the cursor is behind it on the same line, and no comment begins there. -/
structure IsSlash (slash : Token) (front : List Char) (behind : Cursor) : Prop where
  known : (front = [] ∧ slash.lexeme = .symbol (.binary .divide)) ∨
    (front = ['='] ∧ slash.lexeme = .symbol (.assignment .divideAssign))
  text : slash.text = String.ofList ('/' :: front)
  offset : behind.offset = slash.start + (front.length + 1)
  position : behind.position = slash.span.start.right (front.length + 1)
  trivia : Trivia.read ('/' :: (front ++ behind.rest)) = .success 0 false

theorem isSlash_of_token (scanned : token cursor = .ok slash behind)
    (isSlash : slash? slash.lexeme = some front) : IsSlash slash front behind := by
  obtain ⟨gap, lineBreak, length, lexeme, flags, before, found, rfl, rfl⟩ :=
    token_eq_ok.mp scanned
  have known : (front = [] ∧ lexeme = .symbol (.binary .divide)) ∨
      (front = ['='] ∧ lexeme = .symbol (.assignment .divideAssign)) := by
    unfold slash? at isSlash
    split at isSlash
    · rename_i same
      cases isSlash
      exact .inl ⟨rfl, same⟩
    · rename_i same
      cases isSlash
      exact .inr ⟨rfl, same⟩
    · cases isSlash
  have text : String.ofList ((cursor.rest.drop gap).take length) =
      String.ofList ('/' :: front) := by
    rcases known with ⟨rfl, rfl⟩ | ⟨rfl, rfl⟩ <;> exact Lexeme.text_of_read found
  have taken : (cursor.rest.drop gap).take length = '/' :: front := by
    simpa using congrArg String.toList text
  have whole : cursor.rest.drop gap = ('/' :: front) ++ (cursor.rest.drop gap).drop length := by
    rw [← taken, List.take_append_drop]
  have none := Trivia.read_drop_of_readFrom before
  rw [Nat.sub_zero, whole] at none
  refine ⟨known, text, ?_, ?_, none⟩
  · simp only [Cursor.moveBy, Cursor.rest_pass, taken, List.length_cons]
  · have inLine : ∀ char ∈ '/' :: front, isLineTerminator char = false := by
      rcases known with ⟨rfl, -⟩ | ⟨rfl, -⟩ <;> simp [isLineTerminator]
    simp only [Cursor.moveBy, Cursor.rest_pass, taken]
    rw [whole, walk_inLine _ _ (by simp) (by simp) inLine, List.length_cons]

/-- The cursor in front of a slash that has been scanned. -/
def opening (slash : Token) (front : List Char) (behind : Cursor) : Cursor :=
  ⟨'/' :: (front ++ behind.rest), slash.start, slash.span.start⟩

/-- A pattern begins with no slash and no star, since a comment would begin there. -/
theorem IsSlash.head (isSlash : IsSlash slash front behind) :
    (front ++ behind.rest).head? ≠ some '/' ∧ (front ++ behind.rest).head? ≠ some '*' := by
  have none := isSlash.trivia
  constructor
  · rintro same
    obtain ⟨rest, whole⟩ := List.head?_eq_some_iff.mp same
    rw [whole, Trivia.read, Trivia.readFrom] at none
    exact absurd (Trivia.le_of_readFrom none) (by decide)
  · rintro same
    obtain ⟨rest, whole⟩ := List.head?_eq_some_iff.mp same
    rw [whole, Trivia.read, Trivia.readFrom] at none
    exact absurd (Trivia.le_of_readFrom none) (by decide)

end Scan

end EcmaScript
