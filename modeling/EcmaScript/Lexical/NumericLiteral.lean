import EcmaScript.Lexical.Reading
import EcmaScript.Source.Character

/-!
# Numeric literals

A numeric literal is decimal, with an optional fraction and exponent, or has a radix prefix and
whole digits. No identifier may begin directly after it, and no decimal digit after the digits of a
radix. A decimal literal denotes the number nearest to it; the digits of a radix are added up with a
rounding at each step.
-/

namespace EcmaScript

namespace NumericLiteral

/-- An identifier could begin at the front of a text. -/
def startsIdentifier (text : List Char) : Bool :=
  text.head?.any fun char => char == '\\' || isIdentifierStart char

/-- A decimal digit is at the front of a text. -/
def startsDigit (text : List Char) : Bool :=
  text.head?.any Char.isDigit

/-- The radix that a letter after a zero chooses, and its flag. -/
def radixOf? : Char → Option (Nat × Flags)
  | 'x' | 'X' => some (16, { hexadecimal := true })
  | 'o' | 'O' => some (8, { octal := true })
  | 'b' | 'B' => some (2, { binary := true })
  | _ => none

/-- Accepts a number of some length, unless an identifier begins in the text after it. -/
def accept (length : Nat) (rest : List Char) (value : Binary64) (flags : Flags) :
    Reading (Binary64 × Flags) :=
  if startsIdentifier rest then .failure length .identifierAfterNumber length
  else .success length (value, flags)

/-- Reads the digits of a radix, after two characters that chose it. -/
def readRadix (radix : Nat) (flags : Flags) (text : List Char) : Reading (Binary64 × Flags) :=
  let digits := leadingDigits radix text
  let length := 2 + digits.length
  let rest := text.drop digits.length
  if digits.isEmpty || startsDigit rest then .failure length .invalidNumber 0
  else accept length rest (.ofDigits radix digits) flags

/-- The point and the digits after it, by their number of characters and their values. -/
def fraction : List Char → Nat × List Nat
  | '.' :: rest =>
    let digits := leadingDigits 10 rest
    (1 + digits.length, digits)
  | _ => (0, [])

/-- The sign of an exponent, by its number of characters and whether it is a minus. -/
def exponentSign : List Char → Nat × Bool
  | '-' :: _ => (1, true)
  | '+' :: _ => (1, false)
  | _ => (0, false)

/-- Reads a decimal number. -/
def readDecimal (text : List Char) : Reading (Binary64 × Flags) :=
  let whole := leadingDigits 10 text
  let (fractionLength, fractionDigits) := fraction (text.drop whole.length)
  let number := numberOfDigits 10 (whole ++ fractionDigits)
  let length := whole.length + fractionLength
  let rest := text.drop length
  if rest.head? = some 'e' ∨ rest.head? = some 'E' then
    let (signLength, isNegative) := exponentSign (rest.drop 1)
    let digits := leadingDigits 10 (rest.drop (1 + signLength))
    let length := length + 1 + signLength + digits.length
    if digits.isEmpty then .failure length .invalidNumber 0
    else
      let size : Int := numberOfDigits 10 digits
      let exponent := (if isNegative then -size else size) - fractionDigits.length
      accept length (text.drop length) (.ofDecimal number exponent) { exponent := true }
  else accept length rest (.ofDecimal number (-fractionDigits.length)) {}

/-- Reads the number at the front of a text that begins with a digit, or with a point and a digit.
-/
def read (text : List Char) : Reading (Binary64 × Flags) :=
  match text with
  | '0' :: letter :: rest =>
    match radixOf? letter with
    | some (radix, flags) => readRadix radix flags rest
    | none => readDecimal text
  | _ => readDecimal text

/-- A number is at the front of a text: a digit, or a point and a digit. -/
def starts : List Char → Bool
  | '.' :: rest => startsDigit rest
  | text => startsDigit text

theorem length_accept (length : Nat) (rest : List Char) (value : Binary64) (flags : Flags) :
    (accept length rest value flags).length = length := by
  unfold accept
  split <;> rfl

theorem length_readRadix_le (radix : Nat) (flags : Flags) (text : List Char) :
    (readRadix radix flags text).length ≤ text.length + 2 := by
  have digits := leadingDigits_length_le radix text
  unfold readRadix
  dsimp only
  split
  · simp only [Reading.length]
    omega
  · rw [length_accept]
    omega

theorem length_fraction_le (text : List Char) : (fraction text).1 ≤ text.length := by
  unfold fraction
  split
  · rename_i rest
    have digits := leadingDigits_length_le 10 rest
    simp only [List.length_cons]
    omega
  · simp

theorem length_exponentSign_le (text : List Char) : (exponentSign text).1 ≤ text.length := by
  unfold exponentSign
  split <;> simp

theorem length_readDecimal_le (text : List Char) :
    (readDecimal text).length ≤ text.length := by
  have whole := leadingDigits_length_le 10 text
  have fractional := length_fraction_le (text.drop (leadingDigits 10 text).length)
  simp only [List.length_drop] at fractional
  have inside : (leadingDigits 10 text).length +
      (fraction (text.drop (leadingDigits 10 text).length)).1 ≤ text.length := by omega
  unfold readDecimal
  dsimp only
  generalize (leadingDigits 10 text).length + (fraction _).1 = front at inside ⊢
  split
  · rename_i marked
    have sign := length_exponentSign_le ((text.drop front).drop 1)
    have digits := leadingDigits_length_le 10
      ((text.drop front).drop (1 + (exponentSign ((text.drop front).drop 1)).1))
    have nonempty : (text.drop front).length ≠ 0 := by
      intro empty
      simp [List.length_eq_zero_iff.mp empty] at marked
    simp only [List.length_drop] at sign digits nonempty
    split
    · simp only [Reading.length]
      omega
    · rw [length_accept]
      omega
  · rw [length_accept]
    omega

theorem length_read_le (text : List Char) : (read text).length ≤ text.length := by
  unfold read
  split
  · rename_i letter rest
    split
    · rename_i radix flags _
      have := length_readRadix_le radix flags rest
      simpa using this
    · exact length_readDecimal_le _
  · exact length_readDecimal_le text

end NumericLiteral

end EcmaScript
