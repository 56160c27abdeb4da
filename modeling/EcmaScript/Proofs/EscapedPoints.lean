import EcmaScript.Proofs.StringElements
import Mathlib.Algebra.Ring.Nat

/-!
# Escaped code points

Identifiers and strings share the escapes that name a code point, with four hexadecimal digits or
with any number of them in braces. `EscapedPoint` is such an escape by its digits. Its text is read
back as its code point whatever comes behind it, and nothing but the text of such an escape is read
as one.
-/

namespace EcmaScript

namespace Digit

variable {radix : Nat}

/-- What is in front of some digits counts as much more as there are digits. -/
theorem numberFrom_eq (high : Nat) (digits : List (Digit radix)) :
    numberFrom high digits = high * radix ^ digits.length + number digits := by
  induction digits generalizing high with
  | nil => simp [numberFrom, number]
  | cons digit digits ih =>
    have first : numberFrom high (digit :: digits) =
        numberFrom (high * radix + digit.value) digits := rfl
    have alone : number (digit :: digits) = numberFrom (0 * radix + digit.value) digits := rfl
    rw [first, alone, ih, ih (0 * radix + digit.value), List.length_cons, Nat.pow_succ']
    rw [Nat.zero_mul, Nat.zero_add, Nat.add_mul, Nat.mul_assoc, Nat.add_assoc]

theorem number_append (front digits : List (Digit radix)) :
    number (front ++ digits) = number front * radix ^ digits.length + number digits := by
  rw [← numberFrom_eq, number, number, numberFrom, numberFrom, numberFrom, List.map_append,
    List.foldl_append]

theorem number_cons (digit : Digit radix) (digits : List (Digit radix)) :
    number (digit :: digits) = digit.value * radix ^ digits.length + number digits := by
  have first : number (digit :: digits) = numberFrom (0 * radix + digit.value) digits := rfl
  rw [first, numberFrom_eq, Nat.zero_mul, Nat.zero_add]

theorem number_lt (digits : List (Digit radix)) : number digits < radix ^ digits.length := by
  induction digits with
  | nil => simp [number, numberFrom]
  | cons digit digits ih =>
    have small := digit.value_lt
    calc number (digit :: digits)
        = digit.value * radix ^ digits.length + number digits := number_cons digit digits
      _ < digit.value * radix ^ digits.length + radix ^ digits.length := Nat.add_lt_add_left ih _
      _ = (digit.value + 1) * radix ^ digits.length := (Nat.succ_mul _ _).symm
      _ ≤ radix * radix ^ digits.length := Nat.mul_le_mul_right _ small
      _ = radix ^ (digit :: digits).length := by rw [List.length_cons, Nat.pow_succ']

/-- The digits at the front of a text, up to the first character that is none. -/
theorem exists_text (radix : Nat) (text : List Char) :
    ∃ (digits : List (Digit radix)) (rest : List Char), text = Digit.text digits ++ rest ∧
      leadingDigits radix text = digits.map value ∧
      ∀ char ∈ rest.head?, digitOf? radix char = none := by
  induction text with
  | nil => exact ⟨[], [], rfl, rfl, nofun⟩
  | cons char text ih =>
    cases read : digitOf? radix char with
    | none =>
      refine ⟨[], char :: text, rfl, ?_, ?_⟩
      · rw [leadingDigits, read]
        rfl
      · rintro _ ⟨⟩
        exact read
    | some digit =>
      obtain ⟨digits, rest, rfl, values, ends⟩ := ih
      refine ⟨⟨char, digit, read⟩ :: digits, rest, rfl, ?_, ends⟩
      rw [leadingDigits, read, values]
      rfl

end Digit

/-- A code point that is written as an escape. It may be a surrogate. -/
inductive EscapedPoint where
  /-- Four hexadecimal digits behind a `u`. -/
  | four (digits : List (Digit 16)) (four : digits.length = 4)
  /-- Any number of hexadecimal digits in braces behind a `u`. -/
  | braced (digits : List (Digit 16)) (some : digits ≠ []) (small : Digit.number digits ≤ 0x10FFFF)

namespace EscapedPoint

/-- The text of an escape. -/
def text : EscapedPoint → List Char
  | four digits _ => '\\' :: 'u' :: Digit.text digits
  | braced digits _ _ => '\\' :: 'u' :: '{' :: (Digit.text digits ++ ['}'])

/-- The code point that an escape names. -/
def code : EscapedPoint → Nat
  | four digits _ | braced digits _ _ => Digit.number digits

/-- The escape has braces. -/
def isBraced : EscapedPoint → Bool
  | four .. => false
  | braced .. => true

/-- What an escape adds to the flags of the name or the string that it is in. -/
def flags (point : EscapedPoint) : Flags :=
  { unicodeEscape := true, bracedEscape := point.isBraced }

theorem exists_text (point : EscapedPoint) : ∃ inside, point.text = '\\' :: 'u' :: inside := by
  cases point <;> exact ⟨_, rfl⟩

/-- What comes behind an escape is behind the rest of it. -/
theorem drop_text (point : EscapedPoint) (rest : List Char) :
    (point.text ++ rest).tail.drop (point.text.length - 1) = rest := by
  obtain ⟨inside, same⟩ := point.exists_text
  simp [same]

/-- The code point is read from the text. -/
theorem unicode_text (point : EscapedPoint) (rest : List Char) :
    Escape.unicode (point.text ++ rest) =
      .success point.text.length ⟨point.code, point.isBraced⟩ := by
  cases point with
  | four digits four =>
    refine (Escape.unicode_four four rest).trans ?_
    simp [text, code, isBraced, four]
  | braced digits some small =>
    have whole : (braced digits some small).text ++ rest =
        '\\' :: 'u' :: '{' :: (Digit.text digits ++ '}' :: rest) := by
      simp [text]
    rw [whole, Escape.unicode_braced_of_le some small rest]
    simp [text, code, isBraced]

end EscapedPoint

namespace Escape

/-- What is read in braces is some digits and the closing brace. -/
theorem exists_digits_of_bracedDigits {code index length : Nat} {text : List Char}
    {point : CodePoint} (read : bracedDigits code index text = .success length point)
    (small : code ≤ 0x10FFFF) :
    ∃ (digits : List (Digit 16)) (rest : List Char), text = Digit.text digits ++ '}' :: rest ∧
      length = index + digits.length + 1 ∧ point = ⟨Digit.numberFrom code digits, true⟩ ∧
      Digit.numberFrom code digits ≤ 0x10FFFF ∧ index + digits.length ≠ 3 := by
  fun_induction bracedDigits code index text with
  | case1 | case2 | case5 => cases read
  | case3 code index char rest digit found _ inside ih =>
    obtain ⟨digits, others, rfl, rfl, rfl, low, more⟩ := ih read (Nat.not_lt.mp inside)
    refine ⟨⟨char, digit, found⟩ :: digits, others, rfl, ?_, rfl, low, ?_⟩
    · rw [List.length_cons]
      omega
    · rw [List.length_cons]
      omega
  | case4 code index char rest _ closing =>
    simp only [Bool.and_eq_true, beq_iff_eq, bne_iff_ne] at closing
    obtain ⟨rfl, more⟩ := closing
    cases read
    exact ⟨[], rest, rfl, rfl, rfl, small, more⟩

/-- What is read as an escape of a code point is the text of one. -/
theorem exists_escapedPoint {length : Nat} {text : List Char} {point : CodePoint}
    (read : unicode text = .success length point) :
    ∃ (escaped : EscapedPoint) (rest : List Char), text = escaped.text ++ rest ∧
      length = escaped.text.length ∧ point = ⟨escaped.code, escaped.isBraced⟩ := by
  unfold unicode at read
  split at read
  · obtain ⟨digits, rest, rfl, rfl, rfl, small, more⟩ :=
      exists_digits_of_bracedDigits read (Nat.zero_le _)
    have some : digits ≠ [] := by
      rintro rfl
      exact more rfl
    refine ⟨.braced digits some small, rest, ?_, ?_, rfl⟩
    · simp [EscapedPoint.text]
    · simp [EscapedPoint.text]
      omega
  · rename_i inside _
    dsimp only at read
    split at read
    · rename_i four
      cases read
      obtain ⟨digits, rest, whole, values, -⟩ := Digit.exists_text 16 (inside.take 4)
      rw [values, List.length_map] at four
      have short := congrArg List.length whole
      rw [List.length_take, List.length_append, Digit.length_text] at short
      have ended : rest = [] := List.length_eq_zero_iff.mp (by omega)
      refine ⟨.four digits four, inside.drop 4, ?_, ?_, ?_⟩
      · rw [ended, List.append_nil] at whole
        rw [EscapedPoint.text, ← whole]
        simp
      · simp [EscapedPoint.text, four]
      · rw [values, ← Digit.number_eq]
        rfl
    · cases read
  · cases read

end Escape

end EcmaScript
