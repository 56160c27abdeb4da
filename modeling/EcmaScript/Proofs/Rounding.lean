import EcmaScript.Number.Binary64
import Mathlib.Algebra.Order.Field.Rat
import Mathlib.Algebra.Order.Ring.Abs
import Mathlib.Order.Monotone.Basic
import Mathlib.Tactic.Linarith

/-!
# Correct rounding

`Binary64.toRat` reads the bits of a finite number. A number is a rational one rounded,
`Binary64.IsRounded`, if no other finite number is nearer and it has an even code where another one
is as near, or if it is infinity and the rational number is no less than the point half-way between
the largest finite number and the power of two behind it. A rational number is rounded to a single
number, which is what quotients and decimals denote.
-/

namespace EcmaScript

namespace Binary64

/-! ### Numbers and their codes -/

/-- The finite number that bits are read as. The lower 52 bits are the fraction, and those above it
the exponent. -/
def toRat (value : Binary64) : ℚ :=
  let exponent := value.code / 2 ^ 52
  let fraction : ℚ := (value.code % 2 ^ 52 : Nat)
  if exponent = 0 then fraction / 2 ^ 1074 else (2 ^ 52 + fraction) * 2 ^ exponent / 2 ^ 1075

/-- A number is a rational one rounded to the nearest. -/
structure IsRounded (exact : ℚ) (value : Binary64) : Prop where
  finite : value.isFinite = true ↔ exact < 2 ^ 1024 - 2 ^ 970
  nearest : value.isFinite = true → ∀ other : Binary64, other.isFinite = true →
    |exact - value.toRat| ≤ |exact - other.toRat|
  even : value.isFinite = true → ∀ other : Binary64, other.isFinite = true → other ≠ value →
    |exact - other.toRat| = |exact - value.toRat| → value.code % 2 = 0

/-- The power of two that the significand of a code counts. -/
def scaleOf (code : Nat) : Nat :=
  code / 2 ^ 52 - 1

/-- The units of a code, as if there were no largest number. -/
def unitsOf (code : Nat) : Nat :=
  (code - scaleOf code * 2 ^ 52) * 2 ^ scaleOf code

/-- A code by its scale and significand. -/
theorem exists_scale (code : Nat) :
    ∃ scale significand, code = scale * 2 ^ 52 + significand ∧ significand < 2 ^ 53 ∧
      (scale = 0 ∨ 2 ^ 52 ≤ significand) := by
  refine ⟨scaleOf code, code - scaleOf code * 2 ^ 52, ?_, ?_, ?_⟩ <;> unfold scaleOf <;> omega

/-- The units of a scale and a significand, which may be the first one of the next scale. -/
theorem unitsOf_eq {scale significand : Nat} (small : significand ≤ 2 ^ 53)
    (normal : scale = 0 ∨ 2 ^ 52 ≤ significand) :
    unitsOf (scale * 2 ^ 52 + significand) = significand * 2 ^ scale := by
  by_cases next : significand = 2 ^ 53
  · subst next
    have above : scaleOf (scale * 2 ^ 52 + 2 ^ 53) = scale + 1 := by
      unfold scaleOf
      omega
    have rest : scale * 2 ^ 52 + 2 ^ 53 - (scale + 1) * 2 ^ 52 = 2 ^ 52 := by omega
    rw [unitsOf, above, rest, pow_succ 2 scale]
    omega
  · have here : scaleOf (scale * 2 ^ 52 + significand) = scale := by
      unfold scaleOf
      omega
    rw [unitsOf, here, Nat.add_sub_cancel_left]

/-- The next code is a power of two further. -/
theorem unitsOf_succ {scale significand : Nat} (small : significand < 2 ^ 53)
    (normal : scale = 0 ∨ 2 ^ 52 ≤ significand) :
    unitsOf (scale * 2 ^ 52 + significand + 1) =
      unitsOf (scale * 2 ^ 52 + significand) + 2 ^ scale := by
  rw [Nat.add_assoc, unitsOf_eq small (by omega), unitsOf_eq (Nat.le_of_lt small) normal,
    Nat.succ_mul]

theorem unitsOf_strictMono : StrictMono unitsOf := by
  refine strictMono_nat_of_lt_succ fun code => ?_
  obtain ⟨scale, significand, rfl, small, normal⟩ := exists_scale code
  rw [unitsOf_succ small normal]
  exact Nat.lt_add_of_pos_right (Nat.two_pow_pos scale)

theorem toRat_eq (value : Binary64) : value.toRat = unitsOf value.code / 2 ^ 1074 := by
  unfold toRat unitsOf scaleOf
  dsimp only
  split
  · rename_i none
    have whole : value.code - (value.code / 2 ^ 52 - 1) * 2 ^ 52 = value.code % 2 ^ 52 := by omega
    rw [whole, none]
    simp
  · rename_i some
    obtain ⟨scale, above⟩ := Nat.exists_eq_succ_of_ne_zero some
    have whole : value.code - (value.code / 2 ^ 52 - 1) * 2 ^ 52 =
        2 ^ 52 + value.code % 2 ^ 52 := by omega
    have half (count : ℚ) : count * 2 ^ (scale + 1) / 2 ^ 1075 = count * 2 ^ scale / 2 ^ 1074 := by
      rw [pow_succ 2 scale, pow_succ 2 1074, ← mul_assoc, mul_div_mul_right _ _ two_ne_zero]
    rw [whole, above, Nat.succ_sub_one, Nat.succ_eq_add_one, half]
    simp only [Nat.cast_mul, Nat.cast_add, Nat.cast_pow, Nat.cast_ofNat]

/-! ### The nearest code -/

/-- A code stands for the number of units nearest to a rational one. It is even if another code is
as near. -/
structure IsNearest (exact : ℚ) (code : Nat) : Prop where
  below : ∀ lower < code, (unitsOf lower + unitsOf code : ℚ) ≤ 2 * exact
  above : ∀ upper > code, 2 * exact ≤ unitsOf code + unitsOf upper
  even : ∀ other ≠ code, 2 * exact = unitsOf code + unitsOf other → code % 2 = 0

/-- It is enough to be sure of the codes next to the nearest one. -/
theorem IsNearest.of_neighbours {exact : ℚ} {code : Nat}
    (below : ∀ lower, lower + 1 = code → (unitsOf lower + unitsOf code : ℚ) ≤ 2 * exact)
    (above : 2 * exact ≤ unitsOf code + unitsOf (code + 1))
    (even : ∀ other, other + 1 = code ∨ other = code + 1 →
      2 * exact = unitsOf code + unitsOf other → code % 2 = 0) : IsNearest exact code := by
  have mono {first second : Nat} (le : first ≤ second) : (unitsOf first : ℚ) ≤ unitsOf second :=
    Nat.cast_le.mpr (unitsOf_strictMono.monotone le)
  refine ⟨fun lower less => ?_, fun upper more => ?_, fun other ne same => ?_⟩
  · obtain ⟨last, rfl⟩ := Nat.exists_eq_add_one_of_ne_zero (Nat.ne_zero_of_lt less)
    linarith only [below last rfl, mono (Nat.le_of_lt_succ less)]
  · linarith only [above, mono (Nat.succ_le_of_lt more)]
  · rcases Nat.lt_or_gt_of_ne ne with less | more
    · obtain ⟨last, rfl⟩ := Nat.exists_eq_add_one_of_ne_zero (Nat.ne_zero_of_lt less)
      refine even last (.inl rfl) ?_
      linarith only [below last rfl, mono (Nat.le_of_lt_succ less), same]
    · refine even (code + 1) (.inr rfl) ?_
      linarith only [above, mono (Nat.succ_le_of_lt more), same]

/-- Half-way between two whole numbers, a quotient is rounded to the even one. -/
theorem roundedQuotient_even (numerator : Nat) {denominator : Nat} (positive : 0 < denominator)
    (half : 2 * numerator = (2 * roundedQuotient numerator denominator + 1) * denominator ∨
      2 * numerator + denominator = 2 * roundedQuotient numerator denominator * denominator) :
    roundedQuotient numerator denominator % 2 = 0 := by
  have split := Nat.div_add_mod numerator denominator
  have small := Nat.mod_lt numerator positive
  unfold roundedQuotient at half ⊢
  generalize numerator / denominator = quotient at split half ⊢
  generalize numerator % denominator = remainder at split small half ⊢
  dsimp only at half ⊢
  have product : denominator * quotient = quotient * denominator := Nat.mul_comm _ _
  split at half <;> simp only [Nat.add_mul, Nat.mul_add, Nat.mul_assoc] at half <;>
    split <;> omega

/-- A rational number is rounded at a scale to a significand. -/
structure IsScaled (exact : ℚ) (scale significand : Nat) : Prop where
  small : significand ≤ 2 ^ 53
  normal : scale = 0 ∨ 2 ^ 52 ≤ significand
  least : scale = 0 ∨ 2 ^ 52 * 2 ^ scale ≤ exact
  above : 2 * exact ≤ (2 * significand + 1) * 2 ^ scale
  below : 2 * significand * 2 ^ scale ≤ 2 * exact + 2 ^ scale
  even : 2 * exact = (2 * significand + 1) * 2 ^ scale ∨
    2 * exact + 2 ^ scale = 2 * significand * 2 ^ scale → significand % 2 = 0

/-- The number of binary digits of a quotient gives a scale at which its whole part has 53 digits,
or fewer if no scale is less. -/
theorem quotient_scale (numerator : Nat) {denominator scale : Nat} (positive : 0 < denominator)
    (shift : (numerator / denominator).log2 - 52 = scale) :
    numerator < 2 ^ 53 * (denominator * 2 ^ scale) ∧
      (scale = 0 ∨ 2 ^ 52 * (denominator * 2 ^ scale) ≤ numerator) := by
  constructor
  · have digits : numerator / denominator < 2 ^ 53 * 2 ^ scale := by
      rw [← pow_add]
      exact Nat.lt_of_lt_of_le Nat.lt_log2_self (Nat.pow_le_pow_right (by decide) (by omega))
    rw [Nat.div_lt_iff_lt_mul positive] at digits
    rwa [Nat.mul_comm denominator, ← Nat.mul_assoc]
  · rcases Nat.eq_zero_or_pos scale with none | some
    · exact .inl none
    · right
      have digits : 2 ^ 52 * 2 ^ scale ≤ numerator / denominator := by
        have long : (numerator / denominator).log2 = 52 + scale := by omega
        rw [← pow_add, ← long]
        refine Nat.log2_self_le ?_
        rintro zero
        rw [zero, Nat.log2_zero] at long
        omega
      rw [Nat.le_div_iff_mul_le positive] at digits
      rwa [Nat.mul_comm denominator, ← Nat.mul_assoc]

/-- At such a scale, a rounded quotient is a significand. -/
theorem roundedQuotient_significand (numerator : Nat) {unit scale : Nat} (positive : 0 < unit)
    (most : numerator < 2 ^ 53 * unit) (least : scale = 0 ∨ 2 ^ 52 * unit ≤ numerator) :
    roundedQuotient numerator unit ≤ 2 ^ 53 ∧
      (scale = 0 ∨ 2 ^ 52 ≤ roundedQuotient numerator unit) := by
  obtain ⟨above, below⟩ := roundedQuotient_near numerator positive
  generalize roundedQuotient numerator unit = significand at above below ⊢
  constructor
  · have double : 2 * significand * unit < (2 ^ 54 + 1) * unit := by omega
    have := Nat.lt_of_mul_lt_mul_right double
    omega
  · refine least.imp_right fun some => ?_
    have double : 2 ^ 53 * unit ≤ (2 * significand + 1) * unit := by omega
    have := Nat.le_of_mul_le_mul_right double positive
    omega

/-- A quotient is rounded at the scale that the number of its binary digits gives. -/
theorem isScaled_roundedQuotient (numerator : Nat) {denominator : Nat}
    (positive : 0 < denominator) :
    IsScaled (numerator / denominator) ((numerator / denominator).log2 - 52)
      (roundedQuotient numerator
        (denominator <<< ((numerator / denominator).log2 - 52))) := by
  generalize shift : (numerator / denominator).log2 - 52 = scale
  have unit : 0 < denominator * 2 ^ scale := Nat.mul_pos positive (Nat.two_pow_pos scale)
  obtain ⟨most, least⟩ := quotient_scale numerator positive shift
  rw [Nat.shiftLeft_eq]
  obtain ⟨small, normal⟩ := roundedQuotient_significand numerator unit most least
  obtain ⟨above, below⟩ := roundedQuotient_near numerator unit
  have even := roundedQuotient_even numerator unit
  generalize roundedQuotient numerator (denominator * 2 ^ scale) = significand
    at small normal above below even ⊢
  have positive : (0 : ℚ) < denominator := Nat.cast_pos.mpr positive
  have whole : (numerator : ℚ) = numerator / denominator * denominator :=
    (div_mul_cancel₀ _ positive.ne').symm
  have cancel {left right : ℚ} : left * denominator = right * denominator ↔ left = right :=
    mul_left_inj' positive.ne'
  have cancelLe {left right : ℚ} : left * denominator ≤ right * denominator ↔ left ≤ right :=
    mul_le_mul_iff_left₀ positive
  generalize (numerator : ℚ) / denominator = exact at whole ⊢
  refine ⟨small, normal, ?_, ?_, ?_, fun half => even ?_⟩
  · refine least.imp_right fun some => ?_
    have some : (2 ^ 52 * (denominator * 2 ^ scale) : ℚ) ≤ numerator := mod_cast some
    rw [← cancelLe, ← whole]
    linarith
  · have above : (2 * numerator : ℚ) ≤ (2 * significand + 1) * (denominator * 2 ^ scale) :=
      mod_cast above
    rw [← cancelLe]
    linarith
  · have below : (2 * significand * (denominator * 2 ^ scale) : ℚ) ≤
        2 * numerator + denominator * 2 ^ scale := mod_cast below
    rw [← cancelLe]
    linarith
  · have casted : (2 * numerator : ℚ) = (2 * significand + 1) * (denominator * 2 ^ scale) ∨
        (2 * numerator + denominator * 2 ^ scale : ℚ) =
          2 * significand * (denominator * 2 ^ scale) := by
      refine half.imp (fun same => ?_) fun same => ?_
      · rw [← cancel] at same
        linarith
      · rw [← cancel] at same
        linarith
    exact mod_cast casted

/-- Below the first significand of a scale, codes are half as far apart. -/
theorem unitsOf_pred {scale significand lower : Nat} (small : significand ≤ 2 ^ 53)
    (normal : scale = 0 ∨ 2 ^ 52 ≤ significand)
    (next : lower + 1 = scale * 2 ^ 52 + significand) :
    unitsOf lower + 2 ^ scale = significand * 2 ^ scale ∨ significand = 2 ^ 52 ∧ scale ≠ 0 := by
  by_cases first : significand = 2 ^ 52 ∧ scale ≠ 0
  · exact .inr first
  · left
    obtain ⟨last, rfl⟩ := Nat.exists_eq_add_one_of_ne_zero (n := significand) (by omega)
    obtain rfl : lower = scale * 2 ^ 52 + last := by omega
    rw [unitsOf_eq (by omega) (by omega), Nat.succ_mul]

/-- Above the last significand of a scale, codes are further apart. -/
theorem le_unitsOf_succ {scale significand : Nat} (small : significand ≤ 2 ^ 53)
    (normal : scale = 0 ∨ 2 ^ 52 ≤ significand) :
    unitsOf (scale * 2 ^ 52 + significand + 1) = significand * 2 ^ scale + 2 ^ scale ∨
      significand = 2 ^ 53 ∧
        significand * 2 ^ scale + 2 ^ scale ≤ unitsOf (scale * 2 ^ 52 + significand + 1) := by
  rcases Nat.lt_or_eq_of_le small with less | rfl
  · rw [unitsOf_succ less normal, unitsOf_eq small normal]
    exact .inl rfl
  · right
    have next : scale * 2 ^ 52 + 2 ^ 53 + 1 = (scale + 1) * 2 ^ 52 + (2 ^ 52 + 1) := by omega
    rw [next, unitsOf_eq (by decide) (.inr (by decide)), pow_succ 2 scale]
    omega

theorem IsScaled.isNearest {exact : ℚ} {scale significand : Nat}
    (scaled : IsScaled exact scale significand) :
    IsNearest exact (scale * 2 ^ 52 + significand) := by
  obtain ⟨small, normal, least, above, below, even⟩ := scaled
  have here : (unitsOf (scale * 2 ^ 52 + significand) : ℚ) = significand * 2 ^ scale :=
    mod_cast unitsOf_eq small normal
  have last {lower : Nat} (next : lower + 1 = scale * 2 ^ 52 + significand) :
      (unitsOf lower + 2 ^ scale : ℚ) = significand * 2 ^ scale ∨
        significand = 2 ^ 52 ∧ scale ≠ 0 :=
    mod_cast unitsOf_pred small normal next
  have next : (unitsOf (scale * 2 ^ 52 + significand + 1) : ℚ) =
        significand * 2 ^ scale + 2 ^ scale ∨ significand = 2 ^ 53 ∧
      (significand * 2 ^ scale + 2 ^ scale : ℚ) ≤
        unitsOf (scale * 2 ^ 52 + significand + 1) :=
    mod_cast le_unitsOf_succ small normal
  have isEven : significand % 2 = 0 → (scale * 2 ^ 52 + significand) % 2 = 0 := by omega
  refine .of_neighbours (fun lower isLast => ?_) ?_ fun other isNext same => ?_
  · rcases last isLast with near | ⟨first, some⟩
    · linarith
    · -- The quotient is no less than the first significand, so the distance below is no matter.
      have least := least.resolve_left some
      have less : (unitsOf lower : ℚ) ≤ unitsOf (scale * 2 ^ 52 + significand) :=
        Nat.cast_le.mpr (unitsOf_strictMono.monotone (isLast ▸ Nat.le_succ lower))
      rw [here, first, Nat.cast_pow, Nat.cast_ofNat] at less ⊢
      linarith
  · rcases next with near | ⟨-, near⟩ <;> linarith
  · apply isEven
    rcases isNext with isLast | rfl
    · rcases last isLast with near | ⟨first, -⟩
      · exact even (.inr (by linarith))
      · omega
    · rcases next with near | ⟨greatest, -⟩
      · exact even (.inl (by linarith))
      · omega

/-! ### Rounded numbers -/

theorem isNearest_zero {exact : ℚ} (small : 2 * exact < 1) : IsNearest exact 0 := by
  have none : unitsOf 0 = 0 := rfl
  have one : unitsOf 1 = 1 := rfl
  refine .of_neighbours nofun ?_ fun _ _ _ => rfl
  rw [Nat.zero_add, none, one, Nat.cast_zero, Nat.cast_one]
  linarith

section Nearest

variable {exact : ℚ} {code : Nat}

theorem IsNearest.distance_le (nearest : IsNearest exact code) (other : Nat) :
    |exact - unitsOf code| ≤ |exact - unitsOf other| := by
  rcases Nat.lt_trichotomy other code with less | rfl | more
  · have below := nearest.below other less
    have mono : (unitsOf other : ℚ) < unitsOf code := Nat.cast_lt.mpr (unitsOf_strictMono less)
    exact (abs_le.mpr ⟨by linarith, by linarith⟩).trans (le_abs_self _)
  · exact le_refl _
  · have above := nearest.above other more
    have mono : (unitsOf code : ℚ) < unitsOf other := Nat.cast_lt.mpr (unitsOf_strictMono more)
    exact (abs_le.mpr ⟨by linarith, by linarith⟩).trans (neg_le_abs _)

theorem IsNearest.even_of_distance_eq (nearest : IsNearest exact code) {other : Nat}
    (ne : other ≠ code) (same : |exact - unitsOf other| = |exact - unitsOf code|) :
    code % 2 = 0 := by
  refine nearest.even other ne ?_
  rcases abs_eq_abs.mp same with same | same
  · have units : (unitsOf other : ℚ) = unitsOf code := by linarith
    exact absurd (unitsOf_strictMono.injective (Nat.cast_injective units)) ne
  · linarith

/-- The units of infinity, as if it were the next finite number. -/
theorem unitsOf_infinityCode : unitsOf infinityCode = 2 ^ 2098 := by
  have whole : infinityCode = 2046 * 2 ^ 52 + 2 ^ 52 := rfl
  rw [whole, unitsOf_eq (by decide) (.inr (Nat.le_refl _)), ← pow_add]

/-- The units of the greatest finite number. -/
theorem unitsOf_greatest : unitsOf (infinityCode - 1) + 2 ^ 2045 = 2 ^ 2098 := by
  have whole : infinityCode - 1 = 2045 * 2 ^ 52 + (2 ^ 53 - 1) := rfl
  have split : 2 ^ 2098 = 2 ^ 53 * 2 ^ 2045 := by rw [← pow_add]
  rw [whole, unitsOf_eq (by decide) (.inr (by decide)), split]
  generalize 2 ^ 2045 = unit
  omega

/-- Half-way between the greatest finite number and the power of two behind it. -/
theorem halfWay : (unitsOf (infinityCode - 1) + unitsOf infinityCode : ℚ) =
    (2 ^ 1024 - 2 ^ 970) * 2 ^ 1075 := by
  have greatest := congrArg (Nat.cast (R := ℚ)) unitsOf_greatest
  have top := congrArg (Nat.cast (R := ℚ)) unitsOf_infinityCode
  rw [Nat.cast_add, Nat.cast_pow, Nat.cast_pow, Nat.cast_ofNat, ← eq_sub_iff_add_eq] at greatest
  rw [Nat.cast_pow, Nat.cast_ofNat] at top
  rw [greatest, top, sub_mul, ← pow_add, ← pow_add, sub_add_eq_add_sub, ← mul_two, ← pow_succ]

/-- The nearest code is that of a finite number below the point half-way to infinity. The greatest
finite number has an odd code, so that point itself belongs to infinity. -/
theorem IsNearest.lt_infinityCode_iff (nearest : IsNearest (exact * 2 ^ 1074) code) :
    code < infinityCode ↔ exact < 2 ^ 1024 - 2 ^ 970 := by
  rw [← mul_lt_mul_iff_left₀ (show (0 : ℚ) < 2 ^ 1075 by positivity), ← halfWay,
    pow_succ (2 : ℚ) 1074, ← mul_assoc, mul_comm _ 2]
  generalize exact * 2 ^ 1074 = units at nearest ⊢
  constructor
  · intro finite
    by_contra beyond
    have above := nearest.above infinityCode finite
    have last : (unitsOf code : ℚ) ≤ unitsOf (infinityCode - 1) :=
      Nat.cast_le.mpr (unitsOf_strictMono.monotone (Nat.le_sub_one_of_lt finite))
    have same : (unitsOf code : ℚ) = unitsOf (infinityCode - 1) := by linarith
    obtain rfl := unitsOf_strictMono.injective (Nat.cast_injective same)
    have even := nearest.even infinityCode (Nat.ne_of_gt finite) (by linarith)
    exact absurd even (by decide)
  · intro less
    by_contra beyond
    have long : infinityCode ≤ code := Nat.le_of_not_lt beyond
    have below := nearest.below (infinityCode - 1) (Nat.lt_of_lt_of_le (by decide) long)
    have mono : (unitsOf infinityCode : ℚ) ≤ unitsOf code :=
      Nat.cast_le.mpr (unitsOf_strictMono.monotone long)
    linarith

end Nearest

theorem eq_of_code {first second : Binary64} (same : first.code = second.code) :
    first = second := by
  cases first
  cases second
  cases same
  rfl

/-- A distance in units. -/
theorem distance_mul (exact : ℚ) (value : Binary64) :
    |exact - value.toRat| * 2 ^ 1074 = |exact * 2 ^ 1074 - unitsOf value.code| := by
  have positive : (0 : ℚ) < 2 ^ 1074 := by positivity
  calc |exact - value.toRat| * 2 ^ 1074
      = |(exact - value.toRat) * 2 ^ 1074| := by rw [abs_mul, abs_of_pos positive]
    _ = |exact * 2 ^ 1074 - unitsOf value.code| := by
        rw [toRat_eq, sub_mul, div_mul_cancel₀ _ positive.ne']

/-- The number of the nearest code is the number nearest to a rational one. -/
theorem IsNearest.isRounded {exact : ℚ} {code : Nat}
    (nearest : IsNearest (exact * 2 ^ 1074) code) : IsRounded exact (ofCode code) := by
  have positive : (0 : ℚ) < 2 ^ 1074 := by positivity
  have finite : (ofCode code).isFinite = true ↔ code < infinityCode := by
    rw [isFinite, decide_eq_true_eq]
    change min code infinityCode < infinityCode ↔ code < infinityCode
    omega
  have code_eq (inside : (ofCode code).isFinite = true) : (ofCode code).code = code :=
    Nat.min_eq_left (Nat.le_of_lt (finite.mp inside))
  refine ⟨finite.trans nearest.lt_infinityCode_iff, fun inside other _ => ?_,
    fun inside other _ ne same => ?_⟩
  · rw [← mul_le_mul_iff_left₀ positive, distance_mul, distance_mul, code_eq inside]
    exact nearest.distance_le other.code
  · rw [code_eq inside]
    rw [← mul_left_inj' positive.ne', distance_mul, distance_mul, code_eq inside] at same
    exact nearest.even_of_distance_eq (fun equal => ne (eq_of_code (equal.trans
      (code_eq inside).symm))) same

theorem toRat_lt {first second : Binary64} (less : first.code < second.code) :
    first.toRat < second.toRat := by
  rw [toRat_eq, toRat_eq]
  have mono : (unitsOf first.code : ℚ) < unitsOf second.code :=
    Nat.cast_lt.mpr (unitsOf_strictMono less)
  gcongr

/-- Two numbers that are equally near have even codes, and so there is a nearer one between them. -/
theorem IsRounded.not_lt {exact : ℚ} {first second : Binary64} (left : IsRounded exact first)
    (right : IsRounded exact second) (finite : second.isFinite = true) :
    ¬first.code < second.code := by
  intro less
  have finiteToo : first.isFinite = true := left.finite.mpr (right.finite.mp finite)
  have same := le_antisymm (left.nearest finiteToo second finite)
    (right.nearest finite first finiteToo)
  have ne : first ≠ second := by
    rintro rfl
    exact Nat.lt_irrefl _ less
  have even := left.even finiteToo second finite ne.symm same.symm
  have evenToo := right.even finite first finiteToo ne same
  have bound : second.code < infinityCode := by simpa [isFinite] using finite
  let middle : Binary64 := ⟨first.code + 1, by omega⟩
  have inside : middle.isFinite = true := by
    simp only [isFinite, decide_eq_true_eq, middle]
    omega
  have before : first.toRat < middle.toRat := toRat_lt (Nat.lt_succ_self _)
  have behind : middle.toRat < second.toRat := toRat_lt (show first.code + 1 < second.code by omega)
  have nearer := (le_abs_self _).trans (left.nearest finiteToo middle inside)
  have centre : exact - first.toRat = -(exact - second.toRat) := by
    rcases abs_eq_abs.mp same with equal | opposite
    · linarith
    · exact opposite
  rcases abs_cases (exact - middle.toRat) with ⟨distance, -⟩ | ⟨distance, -⟩ <;> linarith

/-- A rational number is rounded to a single number. -/
theorem IsRounded.eq {exact : ℚ} {first second : Binary64} (left : IsRounded exact first)
    (right : IsRounded exact second) : first = second := by
  apply eq_of_code
  by_cases finite : second.isFinite = true
  · have finiteToo := left.finite.mpr (right.finite.mp finite)
    exact Nat.le_antisymm (Nat.le_of_not_lt (right.not_lt left finiteToo))
      (Nat.le_of_not_lt (left.not_lt right finite))
  · have infinite : ¬first.isFinite = true :=
      fun finiteToo => finite (right.finite.mpr (left.finite.mp finiteToo))
    have le := first.code_le
    have leToo := second.code_le
    rw [isFinite, decide_eq_true_eq] at finite infinite
    omega

/-! ### What is rounded -/

theorem cast_shiftLeft (number count : Nat) :
    ((number <<< count : Nat) : ℚ) = number * 2 ^ count := by
  rw [Nat.shiftLeft_eq, Nat.cast_mul, Nat.cast_pow, Nat.cast_ofNat]

/-- A quotient is rounded. -/
theorem isRounded_ofRatio (numerator : Nat) {denominator : Nat} (positive : 0 < denominator) :
    IsRounded (numerator / denominator) (ofRatio numerator denominator) := by
  have nearest := (isScaled_roundedQuotient (numerator <<< 1074) positive).isNearest
  unfold ofRatio
  dsimp only
  rw [Nat.shiftLeft_eq _ 52]
  refine IsNearest.isRounded ?_
  have units : (numerator / denominator * 2 ^ 1074 : ℚ) =
      (numerator <<< 1074 : Nat) / denominator := by
    rw [cast_shiftLeft, div_mul_eq_mul_div]
  rw [units]
  exact nearest

/-- A whole number is rounded. -/
theorem isRounded_ofNat (number : Nat) : IsRounded number (ofNat number) := by
  have rounded := isRounded_ofRatio number Nat.one_pos
  rwa [Nat.cast_one, div_one] at rounded

/-- What is too great for finite numbers is rounded to infinity. -/
theorem isRounded_infinity {exact : ℚ} (great : 2 ^ 1024 ≤ exact) : IsRounded exact infinity := by
  have infinite : ¬infinity.isFinite = true := by decide
  have positive : (0 : ℚ) < 2 ^ 970 := by positivity
  exact ⟨iff_of_false infinite fun less => lt_asymm (great.trans_lt less) (sub_lt_self _ positive),
    fun finite => absurd finite infinite, fun finite => absurd finite infinite⟩

/-- What is too small for numbers but zero is rounded to zero. -/
theorem isRounded_zero {exact : ℚ} (small : exact * 2 ^ 1075 < 1) : IsRounded exact zero := by
  refine IsNearest.isRounded (isNearest_zero ?_)
  rwa [mul_comm, mul_assoc, ← pow_succ]

/-- The powers of two at the ends of the range of finite numbers, and powers of ten beyond them. -/
theorem powers_le : (2 : ℚ) ^ 1024 ≤ 10 ^ 310 ∧ (2 : ℚ) ^ 1075 ≤ 10 ^ 324 := by
  have cast {exponent power : Nat} (le : 2 ^ exponent ≤ 10 ^ power) :
      (2 : ℚ) ^ exponent ≤ 10 ^ power := mod_cast le
  exact ⟨cast (by decide +kernel), cast (by decide +kernel)⟩

/-- A decimal is rounded. -/
theorem isRounded_ofDecimal (number : Nat) (exponent : Int) :
    IsRounded (number * 10 ^ exponent) (ofDecimal number exponent) := by
  have power : (0 : ℚ) < 10 ^ exponent := zpow_pos (by norm_num) exponent
  unfold ofDecimal
  split_ifs with none great small whole
  · rw [none, Nat.cast_zero, zero_mul]
    exact isRounded_zero (by rw [zero_mul]; exact one_pos)
  · have some : (1 : ℚ) ≤ number := Nat.one_le_cast.mpr (Nat.pos_of_ne_zero none)
    refine isRounded_infinity ?_
    calc (2 : ℚ) ^ 1024
        ≤ 10 ^ 310 := powers_le.1
      _ = 10 ^ (310 : Int) := (zpow_ofNat 10 310).symm
      _ ≤ 10 ^ exponent := zpow_le_zpow_right₀ (by norm_num) great
      _ ≤ number * 10 ^ exponent := le_mul_of_one_le_left (by positivity) some
  · have digits : (number : ℚ) < 10 ^ (number.log2 + 1) := by
      have binary : number < 2 ^ (number.log2 + 1) := Nat.lt_log2_self
      exact mod_cast Nat.lt_of_lt_of_le binary (Nat.pow_le_pow_left (by decide) _)
    refine isRounded_zero ?_
    calc number * 10 ^ exponent * 2 ^ 1075
        ≤ (number * 10 ^ exponent * 10 ^ 324 : ℚ) :=
          mul_le_mul_of_nonneg_left (powers_le.2) (by positivity)
      _ < 10 ^ (number.log2 + 1) * 10 ^ exponent * 10 ^ 324 := by gcongr
      _ = 10 ^ ((number.log2 + 1 + exponent) + 324) := by
          rw [zpow_add₀ (by norm_num), zpow_add₀ (by norm_num), zpow_ofNat]
          norm_cast
      _ ≤ 10 ^ (0 : Int) := zpow_le_zpow_right₀ (by norm_num) (by omega)
      _ = 1 := zpow_zero 10
  · obtain ⟨count, rfl⟩ := Int.eq_ofNat_of_zero_le whole
    have rounded := isRounded_ofNat (number * Nat.pow 10 count)
    rwa [Nat.pow_eq, Nat.cast_mul, Nat.cast_pow, Nat.cast_ofNat, ← zpow_natCast] at rounded
  · obtain ⟨count, rfl⟩ : ∃ count : Nat, exponent = -count := ⟨(-exponent).toNat, by omega⟩
    have rounded := isRounded_ofRatio number (Nat.pow_pos (n := count) (show 0 < 10 by decide))
    rw [neg_neg, Int.toNat_natCast, Nat.pow_eq, zpow_neg, zpow_natCast, ← div_eq_mul_inv]
    rwa [Nat.cast_pow, Nat.cast_ofNat] at rounded

end Binary64

end EcmaScript
