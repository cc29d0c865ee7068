import Downline.Json.Value

/-!
# Writing JSON values

There are two forms: the compact one has no blanks, the pretty one puts every item and entry on a
line of its own, indented by two blanks per level. Both write entries in their order and escape as
little as possible: the quote, the backslash and the control characters below U+0020.

All writers put their text in front of a text that follows, so that what is written first needs no
copying and reading back is stated for any continuation.
-/

namespace Downline.Json

/-- The lower-case hexadecimal digit of a number below sixteen. -/
def hexDigit (n : Nat) : Char :=
  if n < 10 then Char.ofNat ('0'.toNat + n) else Char.ofNat ('a'.toNat + (n - 10))

/-- A character as it stands in a string literal. -/
def escapedChar (c : Char) : List Char :=
  if c = '"' then ['\\', '"']
  else if c = '\\' then ['\\', '\\']
  else if c = '\x08' then ['\\', 'b']
  else if c = '\x0c' then ['\\', 'f']
  else if c = '\n' then ['\\', 'n']
  else if c = '\r' then ['\\', 'r']
  else if c = '\t' then ['\\', 't']
  else if c.toNat < 0x20 then
    ['\\', 'u', '0', '0', hexDigit (c.toNat / 16), hexDigit (c.toNat % 16)]
  else [c]

/-- The characters of a text and its closing quote, in front of what follows. -/
def textBefore : List Char → List Char → List Char
  | [], rest => '"' :: rest
  | c :: cs, rest => escapedChar c ++ textBefore cs rest

/-- A string literal in front of what follows. -/
def stringBefore (s : String) (rest : List Char) : List Char := '"' :: textBefore s.toList rest

namespace Value

mutual

/-- The compact form of a value in front of what follows. -/
def compactBefore : Value → List Char → List Char
  | .null, rest => 'n' :: 'u' :: 'l' :: 'l' :: rest
  | .bool true, rest => 't' :: 'r' :: 'u' :: 'e' :: rest
  | .bool false, rest => 'f' :: 'a' :: 'l' :: 's' :: 'e' :: rest
  | .number n, rest => n.chars ++ rest
  | .text s, rest => stringBefore s rest
  | .list items, rest => '[' :: compactItems items (']' :: rest)
  | .object entries, rest => '\x7b' :: compactEntries entries ('\x7d' :: rest)

def compactItems : List Value → List Char → List Char
  | [], rest => rest
  | [v], rest => v.compactBefore rest
  | v :: w :: vs, rest => v.compactBefore (',' :: compactItems (w :: vs) rest)

def compactEntries : List (String × Value) → List Char → List Char
  | [], rest => rest
  | [(k, v)], rest => stringBefore k (':' :: v.compactBefore rest)
  | (k, v) :: e :: es, rest =>
    stringBefore k (':' :: v.compactBefore (',' :: compactEntries (e :: es) rest))

end

/-- The compact form of a value. -/
def compact (v : Value) : String := String.ofList (v.compactBefore [])

/-- A new line, indented to a level, in front of what follows. -/
def newLine (level : Nat) (rest : List Char) : List Char :=
  '\n' :: (List.replicate (2 * level) ' ' ++ rest)

mutual

/-- The pretty form of a value at a level of indentation. -/
def prettyBefore (level : Nat) : Value → List Char → List Char
  | .list (v :: vs), rest =>
    '[' :: prettyItems (level + 1) (v :: vs) (newLine level (']' :: rest))
  | .object (e :: es), rest =>
    '\x7b' :: prettyEntries (level + 1) (e :: es) (newLine level ('\x7d' :: rest))
  | .list [], rest => '[' :: ']' :: rest
  | .object [], rest => '\x7b' :: '\x7d' :: rest
  | .null, rest => 'n' :: 'u' :: 'l' :: 'l' :: rest
  | .bool true, rest => 't' :: 'r' :: 'u' :: 'e' :: rest
  | .bool false, rest => 'f' :: 'a' :: 'l' :: 's' :: 'e' :: rest
  | .number n, rest => n.chars ++ rest
  | .text s, rest => stringBefore s rest

def prettyItems (level : Nat) : List Value → List Char → List Char
  | [], rest => rest
  | [v], rest => newLine level (prettyBefore level v rest)
  | v :: w :: vs, rest =>
    newLine level (prettyBefore level v (',' :: prettyItems level (w :: vs) rest))

def prettyEntries (level : Nat) : List (String × Value) → List Char → List Char
  | [], rest => rest
  | [(k, v)], rest =>
    newLine level (stringBefore k (':' :: ' ' :: prettyBefore level v rest))
  | (k, v) :: e :: es, rest =>
    newLine level (stringBefore k (':' :: ' ' ::
      prettyBefore level v (',' :: prettyEntries level (e :: es) rest)))

end

/-- The pretty form of a value. -/
def pretty (v : Value) : String := String.ofList (v.prettyBefore 0 [])

/-- A whole number as a value. -/
def ofUInt64 (n : UInt64) : Value := .number (.natural n)

/-- A text or nothing as a value. -/
def ofOption (s : Option String) : Value :=
  match s with
  | none => .null
  | some s => .text s

end Value

end Downline.Json
