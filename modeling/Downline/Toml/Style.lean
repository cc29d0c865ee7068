import Downline.Toml.Literal

/-!
# Writing texts as TOML literals

A text is written in the plainest form that can hold it: between double quotes if nothing in it
needs an escape, between single quotes if that avoids escapes, between three quotes if it has line
breaks or quotes that need them, and with escapes as a last resort. A tab is no reason for an
escape, but between double quotes it is written as one.

Between three quotes, a text with line breaks begins on a line of its own, so that a break at its
start is not lost.
-/

namespace Downline.Toml

/-- The length of the longest run of a character, given the run that is in progress and the longest
one so far. -/
def longestRunAfter (quote : Char) (run longest : Nat) : List Char → Nat
  | [] => max run longest
  | c :: cs =>
    if c = quote then longestRunAfter quote (run + 1) longest cs
    else longestRunAfter quote 0 (max run longest) cs

/-- The length of the longest run of a character in a text. -/
def longestRun (quote : Char) (cs : List Char) : Nat := longestRunAfter quote 0 0 cs

/-- How a text is written. -/
inductive Style where
  | basic
  | literal
  | longBasic
  | longLiteral
  deriving DecidableEq, Repr

/-- True of a character that always needs an escape: a control character that is no line feed. -/
def needsEscape (c : Char) : Bool := c != '\n' && isControl c

/-- The style of a text: the first that holds it as it is, or else escapes between the fewest
quotes. -/
def Style.of (cs : List Char) : Style :=
  let controls := cs.any needsEscape
  let lines := cs.contains '\n'
  let backslashes := cs.contains '\\'
  if !controls && !backslashes && !lines && !cs.contains '"' then basic
  else if !controls && !lines && !cs.contains '\'' then literal
  else if !controls && !backslashes && longestRun '"' cs ≤ 2 then longBasic
  else if !controls && longestRun '\'' cs ≤ 2 then longLiteral
  else if lines then longBasic
  else basic

/-- The upper-case hexadecimal digit of a number below sixteen. -/
def hexDigit (n : Nat) : Char :=
  if n < 10 then Char.ofNat ('0'.toNat + n) else Char.ofNat ('A'.toNat + (n - 10))

/-- The escape of a character, `none` if it stands for itself between double quotes. Quotes and line
feeds are left to their writers. -/
def escape? (c : Char) : Option (List Char) :=
  if c = '\x08' then some ['\\', 'b']
  else if c = '\t' then some ['\\', 't']
  else if c = '\x0c' then some ['\\', 'f']
  else if c = '\r' then some ['\\', 'r']
  else if c = '\\' then some ['\\', '\\']
  else if needsEscape c then
    some ['\\', 'u', '0', '0', hexDigit (c.toNat / 16), hexDigit (c.toNat % 16)]
  else none

/-- The characters of a text between double quotes, in front of what follows. -/
def basicBefore : List Char → List Char → List Char
  | [], rest => rest
  | c :: cs, rest =>
    if c = '"' then '\\' :: '"' :: basicBefore cs rest
    else if c = '\n' then '\\' :: 'n' :: basicBefore cs rest
    else
      match escape? c with
      | some e => e ++ basicBefore cs rest
      | none => c :: basicBefore cs rest

/-- The characters of a text between three double quotes, in front of what follows. `run` quotes
have been written right before; a third one is escaped. -/
def longBasicBefore (run : Nat) : List Char → List Char → List Char
  | [], rest => rest
  | c :: cs, rest =>
    if c = '"' then
      if run < 2 then '"' :: longBasicBefore (run + 1) cs rest
      else '\\' :: '"' :: longBasicBefore 0 cs rest
    else
      match escape? c with
      | some e => e ++ longBasicBefore 0 cs rest
      | none => c :: longBasicBefore 0 cs rest

/-- Three quotes, and a line break if the text has one. -/
def opening (quote : Char) (cs : List Char) (rest : List Char) : List Char :=
  if cs.contains '\n' then quote :: quote :: quote :: '\n' :: rest
  else quote :: quote :: quote :: rest

/-- A text as a literal, in front of what follows. -/
def literalBefore (cs rest : List Char) : List Char :=
  match Style.of cs with
  | .basic => '"' :: basicBefore cs ('"' :: rest)
  | .literal => '\'' :: (cs ++ '\'' :: rest)
  | .longBasic => opening '"' cs (longBasicBefore 0 cs ('"' :: '"' :: '"' :: rest))
  | .longLiteral => opening '\'' cs (cs ++ '\'' :: '\'' :: '\'' :: rest)

/-- A text as a literal. -/
def literal (s : String) : String := String.ofList (literalBefore s.toList [])

end Downline.Toml
