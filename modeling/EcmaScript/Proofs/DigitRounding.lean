import EcmaScript.Proofs.EscapedPoints
import EcmaScript.Proofs.Rounding

/-!
# Adding up digits with a rounding at each step

In a radix that is a power of two, all is exact until the number needs more than the 53 digits of a
significand. The digit with which it does is rounded away or into the significand, and what comes
behind it is too small to be seen: it counts as zero. The sum is the exact number rounded but in one
case, where the digits that were seen are half-way between two significands, were rounded down to
the even one, and the others would have decided for the odd one.
-/

namespace EcmaScript

namespace Digit

variable {radix : Nat}

/-- The digits that are seen behind a number: those up to the one with which the number is longer
than a significand. -/
def seenFrom (high : Nat) : List (Digit radix) → List (Digit radix)
  | [] => []
  | digit :: digits =>
    if 2 ^ 53 ≤ high then [] else digit :: seenFrom (high * radix + digit.value) digits

/-- The digits that are seen. -/
def seen (digits : List (Digit radix)) : List (Digit radix) :=
  seenFrom 0 digits

/-- The digits behind those that are seen. -/
def unseen (digits : List (Digit radix)) : List (Digit radix) :=
  digits.drop (seen digits).length

theorem seenFrom_of_le {high : Nat} (long : 2 ^ 53 ≤ high) (digits : List (Digit radix)) :
    seenFrom high digits = [] := by
  cases digits with
  | nil => rfl
  | cons digit digits => rw [seenFrom, if_pos long]

theorem seenFrom_append_drop (high : Nat) (digits : List (Digit radix)) :
    seenFrom high digits ++ digits.drop (seenFrom high digits).length = digits := by
  induction digits generalizing high with
  | nil => rfl
  | cons digit digits ih =>
    rw [seenFrom]
    split
    · rfl
    · rw [List.length_cons, List.drop_succ_cons, List.cons_append, ih]

theorem seen_append_unseen (digits : List (Digit radix)) : seen digits ++ unseen digits = digits :=
  seenFrom_append_drop 0 digits

/-- Where digits are unseen, those that are seen are longer than a significand. -/
theorem le_numberFrom_seenFrom {high : Nat} {digits : List (Digit radix)}
    (more : digits.drop (seenFrom high digits).length ≠ []) :
    2 ^ 53 ≤ numberFrom high (seenFrom high digits) := by
  induction digits generalizing high with
  | nil => exact absurd rfl more
  | cons digit digits ih =>
    rw [seenFrom] at more ⊢
    split
    · assumption
    · rename_i short
      rw [if_neg short, List.length_cons, List.drop_succ_cons] at more
      exact ih more

/-- What digits count when the unseen ones are taken for zeros. -/
def seenNumber (digits : List (Digit radix)) : Nat :=
  number (seen digits) * radix ^ (unseen digits).length

theorem number_eq_seenNumber_add (digits : List (Digit radix)) :
    number digits = seenNumber digits + number (unseen digits) := by
  rw [seenNumber, ← number_append, seen_append_unseen]

/-- The digits that are seen are half-way between an even significand and the next one, and are not
all: behind the 53 binary digits of the significand, of which the last one is a zero, there is a one
and nothing but zeros. -/
structure IsHalfSeen (digits : List (Digit radix)) : Prop where
  half : number (seen digits) % 2 ^ ((number (seen digits)).log2 - 51) =
    2 ^ ((number (seen digits)).log2 - 53)
  more : number (unseen digits) ≠ 0

end Digit

namespace Binary64

/-! ### Quotients by powers of two -/

theorem roundedQuotient_mul_right (numerator denominator : Nat) {factor : Nat}
    (positive : 0 < factor) :
    roundedQuotient (numerator * factor) (denominator * factor) =
      roundedQuotient numerator denominator := by
  unfold roundedQuotient
  rw [Nat.mul_div_mul_right _ _ positive, Nat.mul_mod_mul_right]
  have less : 2 * (numerator % denominator * factor) < denominator * factor ↔
      2 * (numerator % denominator) < denominator := by
    rw [← Nat.mul_assoc, Nat.mul_lt_mul_right positive]
  have same : 2 * (numerator % denominator * factor) = denominator * factor ↔
      2 * (numerator % denominator) = denominator := by
    rw [← Nat.mul_assoc, Nat.mul_left_inj (Nat.ne_of_gt positive)]
  simp only [less, same]

/-- Half-way above an even quotient. -/
theorem mod_eq_half_iff (number scale : Nat) :
    number % 2 ^ (scale + 2) = 2 ^ scale ↔
      2 * (number % 2 ^ (scale + 1)) = 2 ^ (scale + 1) ∧ number / 2 ^ (scale + 1) % 2 = 0 := by
  have split : number % 2 ^ (scale + 2) =
      number % 2 ^ (scale + 1) + 2 ^ (scale + 1) * (number / 2 ^ (scale + 1) % 2) :=
    Nat.mod_mul
  have small := Nat.mod_lt number (Nat.two_pow_pos (scale + 1))
  rw [split]
  rw [Nat.pow_succ] at small ⊢
  rcases Nat.mod_two_eq_zero_or_one (number / (2 ^ scale * 2)) with even | odd
  · rw [even]
    omega
  · rw [odd]
    omega

/-- Something less than a unit behind a number decides only where the number is half-way between two
quotients. There it decides for the upper one. -/
theorem roundedQuotient_mul_add (number : Nat) {low factor : Nat} (scale : Nat)
    (small : low < factor) :
    roundedQuotient (number * factor + low) (2 ^ (scale + 1) * factor) =
      if number % 2 ^ (scale + 2) = 2 ^ scale ∧ low ≠ 0 then
        roundedQuotient number (2 ^ (scale + 1)) + 1
      else roundedQuotient number (2 ^ (scale + 1)) := by
  have positive : 0 < factor := Nat.zero_lt_of_lt small
  have quotient : (number * factor + low) / (2 ^ (scale + 1) * factor) =
      number / 2 ^ (scale + 1) := by
    rw [Nat.mul_comm (2 ^ _), ← Nat.div_div_eq_div_mul, Nat.mul_comm number,
      Nat.mul_add_div positive, Nat.div_eq_of_lt small, Nat.add_zero]
  have remainder : (number * factor + low) % (2 ^ (scale + 1) * factor) =
      number % 2 ^ (scale + 1) * factor + low := by
    rw [Nat.mul_comm (2 ^ _), Nat.mod_mul, Nat.mul_comm number, Nat.mul_add_mod,
      Nat.mul_add_div positive, Nat.div_eq_of_lt small, Nat.mod_eq_of_lt small, Nat.add_zero,
      Nat.add_comm, Nat.mul_comm]
  unfold roundedQuotient
  simp only [quotient, remainder, mod_eq_half_iff]
  have even : 2 ^ (scale + 1) = 2 * 2 ^ scale := Nat.pow_succ'
  generalize 2 ^ (scale + 1) = unit at even ⊢
  generalize number % unit = rest
  rcases Nat.lt_trichotomy (2 * rest) unit with below | half | above
  · -- The remainder and one more is no more than a half.
    have room : (2 * rest + 2) * factor ≤ unit * factor := Nat.mul_le_mul_right factor (by omega)
    rw [Nat.add_mul, Nat.mul_assoc] at room
    rw [if_pos (.inl (by omega)), if_neg (by omega), if_pos (.inl below)]
  · have whole : 2 * (rest * factor) = unit * factor := by rw [← half, Nat.mul_assoc]
    by_cases none : low = 0
    · simp only [none, Nat.add_zero, whole, Nat.lt_irrefl, half, true_and, false_or, ne_eq,
        not_true, and_false, if_false]
    · have beyond : ¬2 * (rest * factor + low) < unit * factor := by omega
      have apart : ¬2 * (rest * factor + low) = unit * factor := by omega
      simp only [beyond, apart, half, none, false_and, or_false, if_false, true_and, Nat.lt_irrefl,
        false_or, ne_eq, not_false_iff, and_true]
      split
      · rfl
      · rfl
  · have more : unit * factor < 2 * rest * factor := (Nat.mul_lt_mul_right positive).mpr above
    rw [Nat.mul_assoc] at more
    rw [if_neg (by omega), if_neg (by omega), if_neg (by omega)]

/-! ### Numbers of at most 53 binary digits -/

/-- A number has as many binary digits more as are appended to it. -/
theorem log2_mul_add {number low count : Nat} (some : number ≠ 0) (small : low < 2 ^ count) :
    (number * 2 ^ count + low).log2 = number.log2 + count := by
  have least : 2 ^ number.log2 ≤ number := Nat.log2_self_le some
  have most : number + 1 ≤ 2 ^ (number.log2 + 1) := Nat.lt_log2_self
  have nonzero : number * 2 ^ count + low ≠ 0 := by
    have := Nat.mul_pos (Nat.pos_of_ne_zero some) (Nat.two_pow_pos count)
    omega
  apply Nat.le_antisymm
  · refine Nat.le_of_lt_succ ((Nat.log2_lt nonzero).mpr ?_)
    calc number * 2 ^ count + low
        < (number + 1) * 2 ^ count := by rw [Nat.succ_mul]; omega
      _ ≤ 2 ^ (number.log2 + 1) * 2 ^ count := Nat.mul_le_mul_right _ most
      _ = 2 ^ (number.log2 + count).succ := by rw [← Nat.pow_add]; congr 1; omega
  · refine (Nat.le_log2 nonzero).mpr ?_
    calc 2 ^ (number.log2 + count)
        = 2 ^ number.log2 * 2 ^ count := Nat.pow_add ..
      _ ≤ number * 2 ^ count := Nat.mul_le_mul_right _ least
      _ ≤ number * 2 ^ count + low := Nat.le_add_right _ _

theorem log2_mul_two_pow {number : Nat} (some : number ≠ 0) (count : Nat) :
    (number * 2 ^ count).log2 = number.log2 + count :=
  log2_mul_add some (Nat.two_pow_pos count)

/-- A number whose binary digits but for 53 are zeros. -/
def IsShort (number : Nat) : Prop :=
  ∃ significand < 2 ^ 53, ∃ scale, number = significand * 2 ^ scale

theorem isShort_of_lt {number : Nat} (small : number < 2 ^ 53) : IsShort number :=
  ⟨number, small, 0, by rw [Nat.pow_zero, Nat.mul_one]⟩

theorem IsShort.mul {number : Nat} (short : IsShort number) (count : Nat) :
    IsShort (number * 2 ^ count) := by
  obtain ⟨significand, small, scale, rfl⟩ := short
  exact ⟨significand, small, scale + count, by rw [Nat.pow_add, Nat.mul_assoc]⟩

/-- The unit of the last one of 53 digits divides a number without more. -/
theorem IsShort.dvd {number : Nat} (short : IsShort number) : 2 ^ (number.log2 - 52) ∣ number := by
  obtain ⟨significand, small, scale, rfl⟩ := short
  by_cases none : significand = 0
  · rw [none, Nat.zero_mul]
    exact Nat.dvd_zero _
  · have digits : significand.log2 < 53 := (Nat.log2_lt none).mpr small
    rw [log2_mul_two_pow none]
    exact Nat.dvd_mul_left_of_dvd (Nat.pow_dvd_pow 2 (by omega)) significand

theorem roundedQuotient_of_dvd {numerator denominator : Nat} (positive : 0 < denominator)
    (whole : denominator ∣ numerator) :
    roundedQuotient numerator denominator = numerator / denominator := by
  rw [roundedQuotient, Nat.mod_eq_zero_of_dvd whole]
  exact if_pos (.inl (by omega))

theorem roundedNat_eq (number : Nat) :
    roundedNat number =
      roundedQuotient number (2 ^ (number.log2 - 52)) * 2 ^ (number.log2 - 52) := by
  rw [roundedNat, Nat.shiftLeft_eq, Nat.shiftLeft_eq, Nat.one_mul]

/-- A number of 53 digits is kept. -/
theorem IsShort.roundedNat_self {number : Nat} (short : IsShort number) :
    roundedNat number = number := by
  rw [roundedNat_eq, roundedQuotient_of_dvd (Nat.two_pow_pos _) short.dvd,
    Nat.div_mul_cancel short.dvd]

/-- The significand of a long number. -/
theorem roundedQuotient_bounds {number : Nat} (long : 2 ^ 52 ≤ number) :
    2 ^ 52 ≤ roundedQuotient number (2 ^ (number.log2 - 52)) ∧
      roundedQuotient number (2 ^ (number.log2 - 52)) ≤ 2 ^ 53 := by
  have some : number ≠ 0 := by omega
  have digits : 52 ≤ number.log2 := (Nat.le_log2 some).mpr long
  have least : 2 ^ 52 * 2 ^ (number.log2 - 52) ≤ number := by
    rw [← Nat.pow_add, Nat.add_sub_cancel' digits]
    exact Nat.log2_self_le some
  have most : number < 2 ^ 53 * 2 ^ (number.log2 - 52) := by
    rw [← Nat.pow_add, show 53 + (number.log2 - 52) = number.log2 + 1 by omega]
    exact Nat.lt_log2_self
  obtain ⟨above, below⟩ :=
    roundedQuotient_significand number (Nat.two_pow_pos (number.log2 - 52)) most (.inr least)
  exact ⟨below.resolve_left (by omega), above⟩

theorem isShort_roundedNat {number : Nat} (long : 2 ^ 52 ≤ number) :
    IsShort (roundedNat number) := by
  obtain ⟨-, most⟩ := roundedQuotient_bounds long
  rw [roundedNat_eq]
  refine .mul ?_ _
  rcases Nat.lt_or_eq_of_le most with small | next
  · exact isShort_of_lt small
  · exact ⟨1, by decide, 53, by rw [next, Nat.one_mul]⟩

/-- A number longer than a significand is not rounded below the shortest one of its kind. -/
theorem le_roundedNat {number : Nat} (long : 2 ^ 53 ≤ number) : 2 ^ 53 ≤ roundedNat number := by
  obtain ⟨least, -⟩ := roundedQuotient_bounds (Nat.le_trans (by decide) long)
  have digits : 53 ≤ number.log2 := (Nat.le_log2 (by omega)).mpr long
  rw [roundedNat_eq]
  calc 2 ^ 53
      = 2 ^ 52 * 2 ^ 1 := rfl
    _ ≤ roundedQuotient number (2 ^ (number.log2 - 52)) * 2 ^ (number.log2 - 52) :=
        Nat.mul_le_mul least (Nat.pow_le_pow_right (by decide) (by omega))

/-- A digit behind a number that has no room for it in its 53 digits is rounded away. -/
theorem IsShort.roundedNat_mul_add {number digit bits : Nat} (short : IsShort number)
    (long : 2 ^ 53 ≤ number) (small : digit < 2 ^ bits) :
    roundedNat (number * 2 ^ bits + digit) = number * 2 ^ bits := by
  have some : number ≠ 0 := by omega
  have digits : 53 ≤ number.log2 := (Nat.le_log2 some).mpr long
  obtain ⟨scale, exponent⟩ : ∃ scale, number.log2 - 52 = scale + 1 := ⟨number.log2 - 53, by omega⟩
  have whole : 2 ^ (scale + 1) ∣ number := exponent ▸ short.dvd
  have notHalf : ¬number % 2 ^ (scale + 2) = 2 ^ scale := by
    rw [mod_eq_half_iff, Nat.mod_eq_zero_of_dvd whole]
    have := Nat.two_pow_pos (scale + 1)
    omega
  have exponents : number.log2 + bits - 52 = scale + 1 + bits := by omega
  rw [roundedNat_eq, log2_mul_add some small, exponents, Nat.pow_add,
    roundedQuotient_mul_add _ _ small, if_neg fun both => notHalf both.1,
    roundedQuotient_of_dvd (Nat.two_pow_pos _) whole, ← Nat.mul_assoc, Nat.div_mul_cancel whole]

/-! ### The sum of digits -/

/-- One step of adding up digits. -/
theorem roundedNat_step {number bits : Nat} (short : IsShort number) (digit : Nat) :
    roundedNat (roundedNat (number * 2 ^ bits) + digit) =
      roundedNat (number * 2 ^ bits + digit) := by
  rw [(short.mul bits).roundedNat_self]

section Sum

variable {bits : Nat}

/-- Digits behind a long number only multiply it. -/
theorem foldl_roundedNat_of_le (digits : List (Digit (2 ^ bits))) {high : Nat}
    (short : IsShort high) (long : 2 ^ 53 ≤ high) :
    (digits.map Digit.value).foldl
        (fun value digit => roundedNat (roundedNat (value * 2 ^ bits) + digit)) high =
      high * (2 ^ bits) ^ digits.length := by
  induction digits generalizing high with
  | nil => exact (Nat.mul_one high).symm
  | cons digit digits ih =>
    have more : 2 ^ 53 ≤ high * 2 ^ bits :=
      Nat.le_trans long (Nat.le_mul_of_pos_right high (Nat.two_pow_pos bits))
    rw [List.map_cons, List.foldl_cons, roundedNat_step short,
      short.roundedNat_mul_add long digit.value_lt, ih (short.mul bits) more, List.length_cons,
      Nat.pow_succ', Nat.mul_assoc]

/-- Digits behind a number of a significand are added up exactly as long as they are seen. -/
theorem foldl_roundedNat (digits : List (Digit (2 ^ bits))) {high : Nat} (small : high < 2 ^ 53) :
    (digits.map Digit.value).foldl
        (fun value digit => roundedNat (roundedNat (value * 2 ^ bits) + digit)) high =
      roundedNat (Digit.numberFrom high (Digit.seenFrom high digits)) *
        (2 ^ bits) ^ (digits.drop (Digit.seenFrom high digits).length).length := by
  induction digits generalizing high with
  | nil =>
    change high = roundedNat high * 1
    rw [(isShort_of_lt small).roundedNat_self, Nat.mul_one]
  | cons digit digits ih =>
    rw [List.map_cons, List.foldl_cons, roundedNat_step (isShort_of_lt small), Digit.seenFrom,
      if_neg (Nat.not_le_of_lt small), List.length_cons, List.drop_succ_cons]
    have first : Digit.numberFrom high
          (digit :: Digit.seenFrom (high * 2 ^ bits + digit.value) digits) =
        Digit.numberFrom (high * 2 ^ bits + digit.value)
          (Digit.seenFrom (high * 2 ^ bits + digit.value) digits) := rfl
    rw [first]
    generalize high * 2 ^ bits + digit.value = next
    rcases Nat.lt_or_ge next (2 ^ 53) with less | long
    · rw [(isShort_of_lt less).roundedNat_self, ih less]
    · have longer : 2 ^ 52 ≤ next := Nat.le_trans (by decide) long
      rw [foldl_roundedNat_of_le digits (isShort_roundedNat longer) (le_roundedNat long),
        Digit.seenFrom_of_le long]
      rfl

end Sum

/-! ### Rounding to a number -/

/-- A long whole number is rounded to its significand. -/
theorem ofNat_eq {number : Nat} (long : 2 ^ 52 ≤ number) :
    ofNat number = ofCode ((number.log2 + 1022) * 2 ^ 52 +
      roundedQuotient number (2 ^ (number.log2 - 52))) := by
  have some : number ≠ 0 := by omega
  have digits : 52 ≤ number.log2 := (Nat.le_log2 some).mpr long
  have exponent : number.log2 + 1074 - 52 = number.log2 + 1022 := by omega
  have unit : 2 ^ (number.log2 + 1022) = 2 ^ (number.log2 - 52) * 2 ^ 1074 := by
    rw [← Nat.pow_add]
    congr 1
    omega
  have shifted (count : Nat) : (number <<< count).log2 = number.log2 + count := by
    rw [Nat.shiftLeft_eq, log2_mul_two_pow some]
  unfold ofNat ofRatio
  dsimp only
  rw [Nat.div_one, shifted, exponent, Nat.shiftLeft_eq, Nat.shiftLeft_eq, Nat.shiftLeft_eq,
    Nat.one_mul, unit, roundedQuotient_mul_right _ _ (Nat.two_pow_pos 1074)]

/-- Rounding to a significand in advance, in front of zeros, is no loss. -/
theorem ofNat_roundedNat_mul (number count : Nat) :
    ofNat (roundedNat number * 2 ^ count) = ofNat (number * 2 ^ count) := by
  rcases Nat.lt_or_ge number (2 ^ 53) with small | long
  · rw [(isShort_of_lt small).roundedNat_self]
  have longer : 2 ^ 52 ≤ number := Nat.le_trans (by decide) long
  have some : number ≠ 0 := by omega
  have digits : 53 ≤ number.log2 := (Nat.le_log2 some).mpr long
  obtain ⟨least, most⟩ := roundedQuotient_bounds longer
  have grows (value : Nat) (least : 2 ^ 52 ≤ value) : 2 ^ 52 ≤ value * 2 ^ count :=
    Nat.le_trans least (Nat.le_mul_of_pos_right value (Nat.two_pow_pos count))
  -- Both have the same significand, if it is not the first one of the next power of two.
  have code (value : Nat) (longValue : 2 ^ 52 ≤ value) :
      ofNat (value * 2 ^ count) = ofCode ((value.log2 + count + 1022) * 2 ^ 52 +
        roundedQuotient value (2 ^ (value.log2 - 52))) := by
    have nonzero : value ≠ 0 := by omega
    have bits : 52 ≤ value.log2 := (Nat.le_log2 nonzero).mpr longValue
    have exponent : value.log2 + count - 52 = value.log2 - 52 + count := by omega
    rw [ofNat_eq (grows value longValue), log2_mul_two_pow nonzero, exponent, Nat.pow_add,
      roundedQuotient_mul_right _ _ (Nat.two_pow_pos count)]
  rw [code _ (Nat.le_trans (by decide) (le_roundedNat long)), code number longer]
  have exact : roundedQuotient (roundedNat number) (2 ^ ((roundedNat number).log2 - 52)) =
      roundedNat number / 2 ^ ((roundedNat number).log2 - 52) :=
    roundedQuotient_of_dvd (Nat.two_pow_pos _) (isShort_roundedNat longer).dvd
  rw [exact, roundedNat_eq]
  generalize roundedQuotient number (2 ^ (number.log2 - 52)) = significand at least most ⊢
  have nonzero : significand ≠ 0 := by omega
  rw [log2_mul_two_pow nonzero]
  rcases Nat.lt_or_eq_of_le most with less | rfl
  · have bits : significand.log2 = 52 := by
      have upper := (Nat.log2_lt nonzero).mpr less
      have lower := (Nat.le_log2 nonzero).mpr least
      omega
    have whole : 52 + (number.log2 - 52) = number.log2 := by omega
    rw [bits, whole, Nat.mul_div_cancel _ (Nat.two_pow_pos _)]
  · have whole : 53 + (number.log2 - 52) = number.log2 + 1 := by omega
    have exponents : number.log2 + 1 - 52 = 1 + (number.log2 - 52) := by omega
    rw [Nat.log2_two_pow, whole, exponents, Nat.pow_add,
      Nat.mul_div_mul_right _ _ (Nat.two_pow_pos _)]
    generalize number.log2 = last
    exact congrArg ofCode (by omega)

/-- The sum of digits is what is seen of them, rounded. -/
theorem ofDigits_eq {bits : Nat} (digits : List (Digit (2 ^ bits))) :
    ofDigits (2 ^ bits) (digits.map Digit.value) = ofNat (Digit.seenNumber digits) := by
  rw [ofDigits, foldl_roundedNat digits (by decide), ← Nat.pow_mul, ofNat_roundedNat_mul,
    Nat.pow_mul]
  rfl

/-- Only behind infinity, the next code stands for the same. -/
theorem ofCode_succ_eq_iff (code : Nat) :
    ofCode (code + 1) = ofCode code ↔ infinityCode ≤ code := by
  rw [ofCode, ofCode, Binary64.mk.injEq]
  omega

/-- Half-way above an even significand, the even one is chosen. -/
theorem roundedQuotient_of_half {number scale : Nat}
    (half : number % 2 ^ (scale + 2) = 2 ^ scale) :
    roundedQuotient number (2 ^ (scale + 1)) = number / 2 ^ (scale + 1) := by
  rw [mod_eq_half_iff] at half
  exact if_pos (.inr half)

/-- Something less than a unit behind a long number makes a difference just if the number is
half-way above an even significand, unless it is too great in any case. -/
theorem ofNat_mul_add_eq_iff {number low count : Nat} (long : 2 ^ 53 ≤ number)
    (small : low < 2 ^ count) (some : low ≠ 0) :
    ofNat (number * 2 ^ count + low) = ofNat (number * 2 ^ count) ↔
      ¬(number % 2 ^ (number.log2 - 51) = 2 ^ (number.log2 - 53) ∧
        number * 2 ^ count + low < 2 ^ 1024) := by
  have nonzero : number ≠ 0 := by omega
  have positive := Nat.two_pow_pos count
  have grows : 2 ^ 52 ≤ number * 2 ^ count :=
    Nat.le_trans (Nat.le_trans (by decide) long) (Nat.le_mul_of_pos_right number positive)
  obtain ⟨least, -⟩ := roundedQuotient_bounds (Nat.le_trans (by decide) long)
  obtain ⟨scale, digits⟩ : ∃ scale, number.log2 = scale + 53 :=
    Nat.exists_eq_add_of_le' ((Nat.le_log2 nonzero).mpr long)
  have exponent : scale + 53 + count - 52 = scale + 1 + count := by omega
  have great : number * 2 ^ count + low < 2 ^ 1024 ↔ scale + 53 + count < 1024 := by
    rw [← Nat.log2_lt (by omega), log2_mul_add nonzero small, digits]
  rw [ofNat_eq (Nat.le_trans grows (Nat.le_add_right _ low)), ofNat_eq grows,
    log2_mul_add nonzero small, log2_mul_two_pow nonzero, great, digits, exponent, Nat.pow_add,
    roundedQuotient_mul_add number scale small, roundedQuotient_mul_right _ _ positive]
  rw [digits] at least
  change 2 ^ 52 ≤ roundedQuotient number (2 ^ (scale + 1)) at least
  change _ ↔ ¬(number % 2 ^ (scale + 2) = 2 ^ scale ∧ _)
  by_cases half : number % 2 ^ (scale + 2) = 2 ^ scale
  · have most : number / 2 ^ (scale + 1) < 2 ^ 53 := by
      refine Nat.div_lt_of_lt_mul ?_
      rw [← Nat.pow_add, show scale + 1 + 53 = number.log2 + 1 by omega]
      exact Nat.lt_log2_self
    rw [roundedQuotient_of_half half] at least
    rw [if_pos ⟨half, some⟩, roundedQuotient_of_half half, ← Nat.add_assoc, ofCode_succ_eq_iff,
      infinityCode]
    simp only [half, true_and]
    omega
  · rw [if_neg fun both => half both.1]
    exact iff_of_true rfl fun both => half both.1

/-- What is not seen makes a difference just if what is seen is half-way above an even significand,
unless the number is too great in any case. -/
theorem ofNat_number_eq_iff {bits : Nat} (digits : List (Digit (2 ^ bits))) :
    ofNat (Digit.number digits) = ofNat (Digit.seenNumber digits) ↔
      ¬(Digit.IsHalfSeen digits ∧ Digit.number digits < 2 ^ 1024) := by
  have split := Digit.number_eq_seenNumber_add digits
  by_cases none : Digit.number (Digit.unseen digits) = 0
  · rw [split, none, Nat.add_zero]
    exact iff_of_true rfl fun both => both.1.more none
  · have long : 2 ^ 53 ≤ Digit.number (Digit.seen digits) := by
      refine Digit.le_numberFrom_seenFrom fun empty => none ?_
      rw [Digit.unseen, Digit.seen, empty]
      rfl
    have small := Digit.number_lt (Digit.unseen digits)
    have half : Digit.IsHalfSeen digits ↔ Digit.number (Digit.seen digits) %
        2 ^ ((Digit.number (Digit.seen digits)).log2 - 51) =
          2 ^ ((Digit.number (Digit.seen digits)).log2 - 53) :=
      ⟨Digit.IsHalfSeen.half, fun half => ⟨half, none⟩⟩
    rw [half, split, Digit.seenNumber]
    rw [← Nat.pow_mul] at small ⊢
    exact ofNat_mul_add_eq_iff long small none

end Binary64

end EcmaScript
