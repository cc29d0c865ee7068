/-!
# Binary numbers from decimals, with one rounding for each step

`scaled?` turns a whole number and a power of ten into a binary64 number the quick way: the whole
number is rounded, the power of ten is rounded, and their product or quotient is rounded. The
result may be one unit away from the nearest binary number; what matters is that it is always the
same one.

Powers beyond the range of binary64 are taken in steps of 308; a product that leaves the range has
no answer, a quotient that does becomes zero.
-/

namespace Downline.Decimal

/-- The binary64 number nearest to a power of ten, for exponents up to 308. -/
def powerOfTen (exponent : Nat) : Float := Float.ofScientific 1 false exponent

/-- A binary64 number times a power of ten; `none` beyond the largest number. -/
def timesPowerOfTen? (f : Float) (exponent : Int) : Option Float :=
  if exponent.natAbs ≤ 308 then
    if 0 ≤ exponent then
      let product := f * powerOfTen exponent.natAbs
      if product.isInf then none else some product
    else some (f / powerOfTen exponent.natAbs)
  else if f == 0 then some f
  else if 0 ≤ exponent then none
  else timesPowerOfTen? (f / powerOfTen 308) (exponent + 308)
termination_by exponent.natAbs
decreasing_by omega

/-- A whole number times a power of ten, with the sign given apart so that zero may be
negative. -/
def scaled? (negative : Bool) (significand : UInt64) (exponent : Int) : Option Float :=
  (timesPowerOfTen? significand.toFloat exponent).map fun f => if negative then -f else f

end Downline.Decimal
