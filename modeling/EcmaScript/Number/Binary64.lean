/-!
# Values of numeric literals

A numeric literal denotes a non-negative binary64 number or infinity. Such a number is kept by its
code, the 64 bits read as a natural number: codes are ordered as the numbers are, and the code after
that of the largest finite number is infinity. A finite number is a whole multiple of `2 ^ -1074`,
its count of units.

Rounding goes to the nearest number, a tie to the number with the even code.
-/

namespace EcmaScript

/-- The code of infinity. -/
def infinityCode : Nat := 0x7FF0000000000000

/-- A non-negative binary64 number, or infinity, by its bits. -/
structure Binary64 where
  code : Nat
  code_le : code ≤ infinityCode
  deriving DecidableEq

namespace Binary64

/-- The number of a code; a code past that of infinity is infinity. -/
def ofCode (code : Nat) : Binary64 :=
  ⟨min code infinityCode, Nat.min_le_right _ _⟩

def zero : Binary64 := ofCode 0

def infinity : Binary64 := ofCode infinityCode

instance : Inhabited Binary64 := ⟨zero⟩

instance : Repr Binary64 := ⟨fun value _ => s!"Binary64.ofCode {value.code}"⟩

/-- Every number but infinity. -/
def isFinite (value : Binary64) : Bool :=
  value.code < infinityCode

/-- The power of two that the significand counts, above `2 ^ -1074`. -/
def scale (value : Binary64) : Nat :=
  (value.code >>> 52) - 1

/-- The whole number of at most 53 bits that is multiplied by the scale. -/
def significand (value : Binary64) : Nat :=
  value.code - (value.scale <<< 52)

/-- A finite number in units of `2 ^ -1074`. -/
def units (value : Binary64) : Nat :=
  value.significand <<< value.scale

/-- The whole number nearest to a quotient; of two equally near, the even one. -/
def roundedQuotient (numerator denominator : Nat) : Nat :=
  let quotient := numerator / denominator
  let remainder := numerator % denominator
  if 2 * remainder < denominator ∨ (2 * remainder = denominator ∧ quotient % 2 = 0) then quotient
  else quotient + 1

/-- The number nearest to a quotient. -/
def ofRatio (numerator denominator : Nat) : Binary64 :=
  let scaled := numerator <<< 1074
  let scale := (scaled / denominator).log2 - 52
  ofCode ((scale <<< 52) + roundedQuotient scaled (denominator <<< scale))

/-- The number nearest to a whole number. -/
def ofNat (number : Nat) : Binary64 :=
  ofRatio number 1

/-- The number nearest to a whole number times a power of ten. The powers that are certain to leave
the range of finite numbers are not computed. -/
def ofDecimal (number : Nat) (exponent : Int) : Binary64 :=
  if number = 0 then zero
  else if 310 ≤ exponent then infinity
  else if number.log2 + 1 + exponent ≤ -324 then zero
  else if 0 ≤ exponent then ofNat (number * Nat.pow 10 exponent.toNat)
  else ofRatio number (Nat.pow 10 (-exponent).toNat)

/-- The nearest whole number that has at most 53 significant bits. -/
def roundedNat (number : Nat) : Nat :=
  let scale := number.log2 - 52
  roundedQuotient number (1 <<< scale) <<< scale

/-- The number that digits of a radix add up to when each step, the product with the radix and the
sum with the next digit, is rounded. -/
def ofDigits (radix : Nat) (digits : List Nat) : Binary64 :=
  ofNat (digits.foldl (fun value digit => roundedNat (roundedNat (value * radix) + digit)) 0)

/-- Whole numbers of at most 53 bits are kept. -/
theorem roundedNat_of_log2_lt {number : Nat} (small : number.log2 < 53) :
    roundedNat number = number := by
  have : number.log2 - 52 = 0 := by omega
  simp [roundedNat, this, roundedQuotient, Nat.mod_one]

/-- Twice the distance from a quotient to the number it is rounded to is at most one. -/
theorem roundedQuotient_near (numerator : Nat) {denominator : Nat} (positive : 0 < denominator) :
    2 * numerator ≤ (2 * roundedQuotient numerator denominator + 1) * denominator ∧
      (2 * roundedQuotient numerator denominator) * denominator ≤ 2 * numerator + denominator := by
  have split := Nat.div_add_mod numerator denominator
  have small := Nat.mod_lt numerator positive
  unfold roundedQuotient
  generalize numerator / denominator = quotient at split
  generalize numerator % denominator = remainder at split small
  dsimp only
  have product : denominator * quotient = quotient * denominator := Nat.mul_comm _ _
  split <;> simp only [Nat.add_mul, Nat.mul_add, Nat.mul_assoc] <;> omega

end Binary64

end EcmaScript
