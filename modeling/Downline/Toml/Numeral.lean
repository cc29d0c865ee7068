import Downline.Toml.Value
import Downline.Decimal.Digits
import Downline.Decimal.Power
import Downline.Json.Document

/-!
# Numerals of TOML

A whole number is written in base ten, or without a sign in base 16, 8 or 2 behind `0x`, `0o` and
`0b`; it has to fit 64 bits with a sign. A number with a fraction, an exponent or both is a real
one, as are `inf` and `nan`. Underscores may stand between digits. A base-ten number has no leading
zero, and a positive real number must not exceed the binary64 numbers.
-/

namespace Downline.Toml

open Decimal

/-- Reads on in a run of digits, of which one has been read: each underscore needs a digit behind
it. -/
def readMoreDigits? (isDigit : Char → Bool) : List Char → Option (List Char × List Char)
  | [] => some ([], [])
  | '_' :: c :: rest =>
    if isDigit c then (readMoreDigits? isDigit rest).map fun (ds, rest) => (c :: ds, rest)
    else none
  | c :: rest =>
    if c = '_' then none
    else if isDigit c then (readMoreDigits? isDigit rest).map fun (ds, rest) => (c :: ds, rest)
    else some ([], c :: rest)

/-- Reads one digit or more. The underscores between them are left out of the answer. -/
def readDigits? (isDigit : Char → Bool) : List Char → Option (List Char × List Char)
  | [] => none
  | c :: rest =>
    if isDigit c then (readMoreDigits? isDigit rest).map fun (ds, rest) => (c :: ds, rest)
    else none

/-- The digits in front of a decimal point: a zero stands alone. -/
def readWhole? : List Char → Option (List Char × List Char)
  | '0' :: rest => some (['0'], rest)
  | cs => readDigits? Char.isDigit cs

/-- The sign that a text may begin with; `true` means minus. -/
def readSign : List Char → Bool × List Char
  | '+' :: rest => (false, rest)
  | '-' :: rest => (true, rest)
  | cs => (false, cs)

/-- The digits behind a decimal point, if the text goes on with one. -/
def readFraction? : List Char → Option (Option (List Char) × List Char)
  | '.' :: rest => (readDigits? Char.isDigit rest).map fun (ds, rest) => (some ds, rest)
  | cs => some (none, cs)

/-- An exponent, if the text goes on with its mark. -/
def readExponent? : List Char → Option (Option Int × List Char)
  | [] => some (none, [])
  | c :: rest =>
    if c = 'e' ∨ c = 'E' then
      (readDigits? Char.isDigit (readSign rest).2).map fun (ds, after) =>
        let magnitude : Int := Digits.toNat ds
        (some (if (readSign rest).1 then -magnitude else magnitude), after)
    else some (none, c :: rest)

/-- The numbers from here on are no binary64 numbers: the point halfway between the largest one and
the next power of two. -/
def realLimit : Nat := twoTo 1024 - twoTo 970

/-- True if a whole number times a power of ten is too big for binary64. The leading digit decides,
except near the limit, which has 309 digits. -/
def exceedsReal (significand : Nat) (exponent : Int) : Bool :=
  let digits : Int := (Digits.ofNat significand).length
  if significand = 0 ∨ digits + exponent < 309 then false
  else if 309 < digits + exponent then true
  else if 0 ≤ exponent then realLimit ≤ significand * tenTo exponent.toNat
  else realLimit * tenTo (-exponent).toNat ≤ significand

/-- The integers that fit 64 bits. -/
def isInteger64 (n : Int) : Bool := -(twoTo 63 : Int) ≤ n && n < twoTo 63

/-- A number that has been read, if it is in range. -/
def number? (minus : Bool) (whole : List Char) (fraction : Option (List Char))
    (exponent : Option Int) (spelling : List Char) : Option Value :=
  match fraction, exponent with
  | none, none =>
    let magnitude : Int := Digits.toNat whole
    let n := if minus then -magnitude else magnitude
    if isInteger64 n then some (.integer n) else none
  | _, _ =>
    let behind := fraction.getD []
    let significand := Digits.toNat (whole ++ behind)
    if !minus && exceedsReal significand (exponent.getD 0 - behind.length) then none
    else some (.real (String.ofList spelling))

/-- The part of a text that has been read. -/
def readPart (cs rest : List Char) : List Char := cs.take (cs.length - rest.length)

/-- Reads a number in base ten; `inf` and `nan` are real ones. -/
def readDecimal? (cs : List Char) : Option (Value × List Char) :=
  let (minus, behind) := readSign cs
  match behind with
  | 'i' :: 'n' :: 'f' :: rest => some (.real (String.ofList (readPart cs rest)), rest)
  | 'n' :: 'a' :: 'n' :: rest => some (.real (String.ofList (readPart cs rest)), rest)
  | _ => do
    let (whole, rest) ← readWhole? behind
    let (fraction, rest) ← readFraction? rest
    let (exponent, rest) ← readExponent? rest
    let n ← number? minus whole fraction exponent (readPart cs rest)
    return (n, rest)

/-- Reads the digits of a number in another base. -/
def readBased? (base : Nat) (cs : List Char) : Option (Value × List Char) := do
  let isDigit := fun c => match Json.Document.hexValue? c with
    | some d => decide (d < base)
    | none => false
  let (ds, rest) ← readDigits? isDigit cs
  let n := ds.foldl (fun n c => n * base + (Json.Document.hexValue? c).getD 0) 0
  if isInteger64 n then some (.integer n, rest) else none

/-- Reads a number. -/
def readNumber? : List Char → Option (Value × List Char)
  | '0' :: 'x' :: rest => readBased? 16 rest
  | '0' :: 'o' :: rest => readBased? 8 rest
  | '0' :: 'b' :: rest => readBased? 2 rest
  | cs => readDecimal? cs

end Downline.Toml
