import Downline.Toml.Numeral

/-!
# Moments of TOML

A moment is a date, a time of day, or both with a `T` or a blank between them and perhaps an offset
behind them. Dates are those of the calendar with its leap years; the last second of a minute is the
sixtieth, as in a minute with a leap second.
-/

namespace Downline.Toml

open Decimal

/-- Reads a number of exactly so many digits. -/
def readFixed? (count : Nat) (cs : List Char) : Option (Nat × List Char) :=
  if (cs.take count).length = count ∧ (cs.take count).all Char.isDigit then
    some (Digits.toNat (cs.take count), cs.drop count)
  else none

/-- Reads a number of two digits that is not larger than a limit. -/
def readUpTo? (limit : Nat) (cs : List Char) : Option (Nat × List Char) :=
  match readFixed? 2 cs with
  | none => none
  | some (n, rest) => if n ≤ limit then some (n, rest) else none

/-- What follows a character that a text begins with. -/
def afterChar? (c : Char) : List Char → Option (List Char)
  | [] => none
  | d :: rest => if c = d then some rest else none

def isLeapYear (year : Nat) : Bool := year % 4 == 0 && (year % 100 != 0 || year % 400 == 0)

/-- The number of days in a month. -/
def daysIn (year month : Nat) : Nat :=
  if month = 2 then if isLeapYear year then 29 else 28
  else if month = 4 ∨ month = 6 ∨ month = 9 ∨ month = 11 then 30
  else 31

/-- What follows the date that a text begins with. -/
def afterDate? (cs : List Char) : Option (List Char) := do
  let (year, cs) ← readFixed? 4 cs
  let cs ← afterChar? '-' cs
  let (month, cs) ← readUpTo? 12 cs
  let cs ← afterChar? '-' cs
  let (day, cs) ← readUpTo? (daysIn year month) cs
  if month = 0 ∨ day = 0 then none else some cs

/-- What follows the fraction of a second, if the text goes on with one. -/
def afterFraction : List Char → List Char
  | '.' :: c :: rest => if c.isDigit then rest.dropWhile Char.isDigit else '.' :: c :: rest
  | cs => cs

/-- What follows the time of day that a text begins with. -/
def afterTime? (cs : List Char) : Option (List Char) := do
  let (_, cs) ← readUpTo? 23 cs
  let cs ← afterChar? ':' cs
  let (_, cs) ← readUpTo? 59 cs
  let cs ← afterChar? ':' cs
  let (_, cs) ← readUpTo? 60 cs
  return afterFraction cs

/-- What follows the offset that a text may begin with; `none` if only its sign is right. -/
def afterOffset? : List Char → Option (List Char)
  | [] => some []
  | c :: rest =>
    if c = 'Z' ∨ c = 'z' then some rest
    else if c = '+' ∨ c = '-' then do
      let (_, rest) ← readUpTo? 23 rest
      let rest ← afterChar? ':' rest
      let (_, rest) ← readUpTo? 59 rest
      return rest
    else some (c :: rest)

/-- What follows the moment that a text begins with. Behind a date, a blank that leads to no time of
day ends the moment. -/
def afterMoment? (cs : List Char) : Option (List Char) :=
  match afterDate? cs with
  | none => afterTime? cs
  | some [] => some []
  | some (c :: rest) =>
    if c = 'T' ∨ c = 't' ∨ c = ' ' then
      match afterTime? rest with
      | none => some (c :: rest)
      | some rest => afterOffset? rest
    else some (c :: rest)

/-- Reads a moment. -/
def readMoment? (cs : List Char) : Option (Value × List Char) :=
  (afterMoment? cs).map fun rest => (.moment (String.ofList (readPart cs rest)), rest)

end Downline.Toml
