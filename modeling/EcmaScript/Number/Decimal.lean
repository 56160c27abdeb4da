import EcmaScript.Number.Binary64

/-!
# Decimal text of numbers

`Binary64.shortest` finds, among the decimals that round to a number, those with the fewest digits
and of them the nearest. `Binary64.text` writes it: positionally from `0.00001` up to `10 ^ 16`,
with at least one digit on each side of the point, and otherwise with an exponent that always has a
sign.
-/

namespace EcmaScript

/-- Decimal digits `d₁ d₂ …` that stand for `0.d₁d₂… × 10 ^ point`. -/
structure Decimal where
  digits : List Char
  point : Int
  deriving DecidableEq, Repr

namespace Binary64

/-- Numbers that round to one number lie between two bounds. The bounds, and the number itself, are
counted in quarters of a unit, and they are included when the significand is even. -/
structure Neighbourhood where
  lower : Nat
  centre : Nat
  upper : Nat
  closed : Bool

/-- The half-way points to the next number on either side. Below a power of two the next number is
at half the distance, except where the numbers are evenly spaced down to zero. -/
def neighbourhood (value : Binary64) : Neighbourhood :=
  let step := 1 <<< value.scale
  let narrow := value.significand = 1 <<< 52 ∧ 0 < value.scale
  { lower := (4 * value.significand - if narrow then 1 else 2) * step
    centre := 4 * value.significand * step
    upper := (4 * value.significand + 2) * step
    closed := value.significand % 2 = 0 }

/-- Quarters of a unit in one. -/
def quarters : Nat := 1 <<< 1076

/-- The exponent of the power of ten at the first digit of a positive number of quarters. -/
def leadingExponent (centre : Nat) : Int :=
  if quarters ≤ centre then (Nat.toDigits 10 (centre / quarters)).length - 1
  else -(Nat.toDigits 10 ((quarters - 1) / centre)).length

/-- The multiple of `10 ^ exponent` nearest to the centre among its two neighbours of that form,
when one of them is in the neighbourhood. -/
def Neighbourhood.multiple? (near : Neighbourhood) (exponent : Int) : Option Nat :=
  let coarse := quarters * Nat.pow 10 exponent.toNat
  let fine := Nat.pow 10 (-exponent).toNat
  let below := near.centre * fine / coarse
  let fits (multiple : Nat) : Bool :=
    let point := multiple * coarse
    if near.closed then near.lower * fine ≤ point && point ≤ near.upper * fine
    else near.lower * fine < point && point < near.upper * fine
  let gapBelow := near.centre * fine - below * coarse
  let gapAbove := (below + 1) * coarse - near.centre * fine
  match fits below, fits (below + 1) with
  | true, true =>
    if gapBelow < gapAbove || (gapBelow == gapAbove && below % 2 == 0) then some below
    else some (below + 1)
  | true, false => some below
  | false, true => some (below + 1)
  | false, false => none

/-- The nearest of the decimals with fewest digits that round to a positive finite number. -/
def shortest (value : Binary64) : Decimal :=
  let near := value.neighbourhood
  let leading := leadingExponent near.centre
  let found := (List.range 17).findSome? fun (further : Nat) =>
    (near.multiple? (leading - further)).map fun multiple => (multiple, leading - further)
  let (multiple, exponent) := found.getD (0, 0)
  let digits := Nat.toDigits 10 multiple
  { digits := (digits.reverse.dropWhile (· == '0')).reverse
    point := exponent + digits.length }

end Binary64

namespace Decimal

/-- The text without an exponent. -/
def positional (decimal : Decimal) : String :=
  let digits := decimal.digits
  let point := decimal.point.toNat
  let zeros (count : Nat) : List Char := List.replicate count '0'
  String.ofList <|
    if decimal.point ≤ 0 then '0' :: '.' :: zeros (-decimal.point).toNat ++ digits
    else if digits.length ≤ point then digits ++ zeros (point - digits.length) ++ ['.', '0']
    else digits.take point ++ '.' :: digits.drop point

/-- The text with one digit before the point and the exponent of the first digit. -/
def scientific (decimal : Decimal) : String :=
  let exponent := decimal.point - 1
  let sign := if exponent < 0 then "-" else "+"
  let fraction := decimal.digits.drop 1
  String.ofList (decimal.digits.take 1 ++ if fraction.isEmpty then [] else '.' :: fraction) ++
    "e" ++ sign ++ Nat.repr exponent.natAbs

end Decimal

namespace Binary64

/-- The text of a finite number. -/
def text (value : Binary64) : String :=
  if value.code = 0 then "0.0"
  else
    let decimal := value.shortest
    if -5 < decimal.point ∧ decimal.point ≤ 16 then decimal.positional else decimal.scientific

end Binary64

end EcmaScript
