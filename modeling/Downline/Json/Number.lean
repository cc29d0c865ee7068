import Downline.Decimal.Digits
import Downline.Decimal.Rounded
import Downline.Decimal.Shortest

/-!
# Numbers of JSON documents

A `Numeral` is a number as written: sign, digits, fraction and exponent. A `Number` is what a
document means by it: a whole number that fits 64 bits, without sign or with one, or else a binary64
number, kept as its bits.

A fraction or an exponent always makes a binary64 number, and so does minus zero. The digits of a
numeral are gathered into 64 bits; digits that no longer fit only shift the decimal point.

Whole numbers are written in full. A binary64 number is written with its shortest digits,
positionally while its decimal exponent is from -5 to 15 and with an exponent otherwise.
-/

namespace Downline.Json

open Decimal

/-- A number as it is written. -/
structure Numeral where
  negative : Bool
  whole : List Char
  fraction : Option (List Char)
  /-- Sign and digits of the exponent; `true` means minus. -/
  exponent : Option (Bool × List Char)
  deriving DecidableEq, Repr

/-- A number as it is meant. -/
inductive Number where
  | natural (n : UInt64)
  /-- A whole number below zero; the magnitude is from 1 to 2 ^ 63. -/
  | negative (magnitude : Nat)
  /-- A binary64 number, by its bits. -/
  | float (bits : UInt64)
  deriving DecidableEq, Repr

/-- The numeral of a whole number. -/
def Numeral.ofNat (n : Nat) : Numeral := ⟨false, Digits.ofNat n, none, none⟩

/-- Digits gathered into a significand of 64 bits, and what that leaves to the power of ten. -/
structure Gathered where
  significand : Nat
  exponent : Int
  /-- A digit has been refused for lack of room. -/
  full : Bool

namespace Gathered

/-- The largest significand. -/
def limit : Nat := twoTo 64 - 1

/-- Takes a digit before the decimal point. Once a digit has been refused, each further one
multiplies by ten. -/
def takeWhole (g : Gathered) (c : Char) : Gathered :=
  let next := g.significand * 10 + Digits.digitValue c
  if g.full || limit < next then ⟨g.significand, g.exponent + 1, true⟩
  else ⟨next, g.exponent, false⟩

/-- Takes a digit after the decimal point. Once a digit has been refused, all further ones are
dropped. -/
def takeFraction (g : Gathered) (c : Char) : Gathered :=
  let next := g.significand * 10 + Digits.digitValue c
  if g.full || limit < next then ⟨g.significand, g.exponent, true⟩
  else ⟨next, g.exponent - 1, false⟩

end Gathered

namespace Numeral

/-- The digits before the decimal point. -/
def gatheredWhole (n : Numeral) : Gathered :=
  n.whole.foldl Gathered.takeWhole ⟨0, 0, false⟩

/-- All digits; the fraction gets its own chance of finding room. -/
def gathered (n : Numeral) : Gathered :=
  let whole := n.gatheredWhole
  (n.fraction.getD []).foldl Gathered.takeFraction { whole with full := false }

/-- The exponent that is written, zero if there is none. -/
def writtenExponent (n : Numeral) : Int :=
  match n.exponent with
  | none => 0
  | some (minus, ds) => if minus then -(Digits.toNat ds : Int) else Digits.toNat ds

/-- The numeral as a binary64 number; `none` beyond the largest one. -/
def float? (n : Numeral) : Option Number :=
  let g := n.gathered
  (scaled? n.negative g.significand.toUInt64 (g.exponent + n.writtenExponent)).map
    fun f => .float f.toBits

/-- What a numeral means. -/
def number? (n : Numeral) : Option Number :=
  if n.fraction.isNone && n.exponent.isNone && !n.gatheredWhole.full then
    let m := n.gatheredWhole.significand
    if !n.negative then some (.natural m.toUInt64)
    else if m = 0 ∨ twoTo 63 < m then n.float?
    else some (.negative m)
  else n.float?

/-- The whole number without sign that a numeral spells, if it fits 64 bits and has neither sign,
fraction nor exponent. -/
def uint64? (n : Numeral) : Option UInt64 :=
  if n.negative || n.fraction.isSome || n.exponent.isSome then none
  else
    let v := Digits.toNat n.whole
    if h : v < UInt64.size then some (.ofNatLT v h) else none

end Numeral

namespace Number

/-- Smallest and largest decimal exponent that is written positionally. -/
def positional : Int × Int := (-5, 15)

/-- A positive decimal: the digits with the point in place, or the leading digit, the others behind
a point, and the exponent with its sign. -/
def scaledChars (d : Scaled) : List Char :=
  let ds := Digits.ofNat d.digits
  let leading := d.exponent + ds.length - 1
  if positional.1 ≤ leading ∧ leading ≤ positional.2 then
    if 0 ≤ d.exponent then ds ++ List.replicate d.exponent.toNat '0' ++ ['.', '0']
    else if 0 ≤ leading then
      ds.take (leading.toNat + 1) ++ '.' :: ds.drop (leading.toNat + 1)
    else '0' :: '.' :: List.replicate ((-leading).toNat - 1) '0' ++ ds
  else
    let mantissa := match ds with
      | [] => []
      | [c] => [c]
      | c :: cs => c :: '.' :: cs
    let mark := if leading < 0 then ['e', '-'] else ['e', '+']
    mantissa ++ mark ++ Digits.ofNat leading.natAbs

/-- The text of a binary64 number. -/
def floatChars (bits : UInt64) : List Char :=
  let magnitude := match Binary.ofBits? bits with
    | none => ['0', '.', '0']
    | some b => scaledChars b.shortest
  if bits.toNat / twoTo 63 = 1 then '-' :: magnitude else magnitude

/-- The text of a number. -/
def chars : Number → List Char
  | natural n => Digits.ofNat n.toNat
  | negative m => '-' :: Digits.ofNat m
  | float bits => floatChars bits

end Number

end Downline.Json
