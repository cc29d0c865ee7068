import Downline.Decimal.Power

/-!
# Shortest decimals of binary numbers

A binary64 number stands for every real number that rounds to it. Among the decimals in that
interval the shortest one is written: the one with the fewest digits, and of several the nearest to
the number itself, a tie going to the even digit.

`Binary.ofBits?` takes a positive finite number apart into `mantissa * 2 ^ exponent`. The interval
reaches half way to the neighbours, its ends included exactly if the mantissa is even; below a
power of two the lower neighbour is twice as near. `Binary.shortest` tries the grids of 1, 2, … 17
digits in turn. If a grid has a point in the interval, then one of the two grid points next to the
number is in it, so looking at those two is enough. All arithmetic is exact.
-/

namespace Downline.Decimal

/-- The positive number `mantissa * 2 ^ exponent`. -/
structure Binary where
  mantissa : Nat
  exponent : Int
  /-- True of a power of two whose lower neighbour is nearer than its upper one. -/
  narrowBelow : Bool
  deriving DecidableEq, Repr

/-- The number `digits * 10 ^ exponent`. -/
structure Scaled where
  digits : Nat
  exponent : Int
  deriving DecidableEq, Repr

namespace Binary

/-- The magnitude of a binary64 number given by its bits; `none` for zero, the infinities and
what is no number. -/
def ofBits? (bits : UInt64) : Option Binary :=
  let biased : Nat := (bits.toNat / twoTo 52) % twoTo 11
  let fraction : Nat := bits.toNat % twoTo 52
  if biased = 2047 then none
  else if biased = 0 then
    if fraction = 0 then none else some ⟨fraction, -1074, false⟩
  else some ⟨twoTo 52 + fraction, (biased : Int) - 1075, fraction = 0 && 1 < biased⟩

/-- The number as a fraction whose parts also express its interval: four times the mantissa over
four times the unit. -/
def numerator (b : Binary) : Nat := 4 * b.mantissa * twoTo b.exponent.toNat

def denominator (b : Binary) : Nat := 4 * twoTo (-b.exponent).toNat

/-- Numerator of the lower end of the interval. -/
def lower (b : Binary) : Nat :=
  (4 * b.mantissa - (if b.narrowBelow then 1 else 2)) * twoTo b.exponent.toNat

/-- Numerator of the upper end of the interval. -/
def upper (b : Binary) : Nat := (4 * b.mantissa + 2) * twoTo b.exponent.toNat

/-- True of a decimal that rounds to the number. -/
def holds (b : Binary) (d : Scaled) : Bool :=
  let point := d.digits * tenTo d.exponent.toNat * b.denominator
  let unit := tenTo (-d.exponent).toNat
  if b.mantissa % 2 = 0 then
    decide (b.lower * unit ≤ point) && decide (point ≤ b.upper * unit)
  else decide (b.lower * unit < point) && decide (point < b.upper * unit)

/-- The negative exponents of ten at which a proper fraction first reaches one. -/
def leadingZeros (denominator : Nat) : Nat → Nat → Nat
  | 0, _ => 0
  | fuel + 1, numerator =>
    if denominator ≤ numerator then 0 else leadingZeros denominator fuel (numerator * 10) + 1

/-- The exponent of the leading decimal digit. -/
def leadingExponent (b : Binary) : Int :=
  if b.denominator ≤ b.numerator then
    (Nat.toDigits 10 (b.numerator / b.denominator)).length - 1
  else -(leadingZeros b.denominator 400 b.numerator : Int)

/-- The grid point at or below the number, on the grid of multiples of a power of ten. -/
def gridBelow (b : Binary) (exponent : Int) : Nat :=
  b.numerator * tenTo (-exponent).toNat / (b.denominator * tenTo exponent.toNat)

/-- True if the grid point above is nearer than the one below, or as near and even. -/
def preferAbove (b : Binary) (exponent : Int) (below : Nat) : Bool :=
  let twice := 2 * b.numerator * tenTo (-exponent).toNat
  let middle := (2 * below + 1) * (b.denominator * tenTo exponent.toNat)
  middle < twice || (middle == twice && below % 2 == 1)

/-- The point of a grid that rounds to the number, if there is one. -/
def onGrid? (b : Binary) (exponent : Int) : Option Scaled :=
  let below := b.gridBelow exponent
  let low : Scaled := ⟨below, exponent⟩
  let high : Scaled := ⟨below + 1, exponent⟩
  match b.holds low, b.holds high with
  | true, true => some (if b.preferAbove exponent below then high else low)
  | true, false => some low
  | false, true => some high
  | false, false => none

/-- The first hit among finer and finer grids. -/
def firstOnGrid (b : Binary) : Nat → Int → Scaled
  | 0, exponent => ⟨b.gridBelow exponent, exponent⟩
  | fuel + 1, exponent => (b.onGrid? exponent).getD (firstOnGrid b fuel (exponent - 1))

end Binary

/-- The same number without zeros at the end of its digits. -/
def Scaled.trimmed (fuel : Nat) (d : Scaled) : Scaled :=
  match fuel with
  | 0 => d
  | fuel + 1 =>
    if d.digits ≠ 0 ∧ d.digits % 10 = 0 then Scaled.trimmed fuel ⟨d.digits / 10, d.exponent + 1⟩
    else d

/-- The shortest decimal that rounds to the number. Seventeen digits always suffice. -/
def Binary.shortest (b : Binary) : Scaled :=
  (b.firstOnGrid 17 b.leadingExponent).trimmed 20

end Downline.Decimal
