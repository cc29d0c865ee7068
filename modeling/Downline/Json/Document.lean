import Downline.Json.Number

/-!
# JSON documents as written

A `Document` is what the grammar of JSON sees: numerals keep their digits, an object keeps every
entry, also of a repeated key, and nesting is free. Two readers build on it. `Value` asks for more
and gives free-form values; the codecs of typed documents look at the fields they know and let
everything else pass.

A string literal may spell a surrogate that stands alone. It is grammatical but denotes no text, so
texts are optional here.
-/

namespace Downline.Json

/-- A JSON document as written. A text is absent if its literal spells a surrogate that stands
alone. -/
inductive Document where
  | null
  | bool (b : Bool)
  | number (n : Numeral)
  | text (s : Option String)
  | list (items : List Document)
  | object (entries : List (Option String × Document))
  deriving Repr

namespace Document

/-- The characters that may stand between the parts of a document. -/
def isBlank (c : Char) : Bool := c == ' ' || c == '\t' || c == '\n' || c == '\r'

def skipBlank (cs : List Char) : List Char := cs.dropWhile isBlank

/-! ## Texts -/

/-- The value of a hexadecimal digit, of either case. -/
def hexValue? (c : Char) : Option Nat :=
  if '0' ≤ c ∧ c ≤ '9' then some (c.toNat - '0'.toNat)
  else if 'a' ≤ c ∧ c ≤ 'f' then some (c.toNat - 'a'.toNat + 10)
  else if 'A' ≤ c ∧ c ≤ 'F' then some (c.toNat - 'A'.toNat + 10)
  else none

/-- The number that four hexadecimal digits spell. -/
def hexUnit? (a b c d : Char) : Option Nat := do
  return (← hexValue? a) * 4096 + (← hexValue? b) * 256 + (← hexValue? c) * 16 + (← hexValue? d)

def isHighSurrogate (u : Nat) : Bool := 0xD800 ≤ u && u < 0xDC00

def isLowSurrogate (u : Nat) : Bool := 0xDC00 ≤ u && u < 0xE000

/-- The character that an escape of a single letter stands for. -/
def escaped? (c : Char) : Option Char :=
  match c with
  | '"' => some '"'
  | '\\' => some '\\'
  | '/' => some '/'
  | 'b' => some '\x08'
  | 'f' => some '\x0c'
  | 'n' => some '\n'
  | 'r' => some '\r'
  | 't' => some '\t'
  | _ => none

/-- A part of a string literal: a character, or a 16-bit unit spelled by its number. -/
inductive Piece where
  | char (c : Char)
  | unit (u : Nat)
  deriving DecidableEq, Repr

/-- Puts a piece in front of the pieces that have been read. -/
def pieceCons (p : Piece) (read : List Piece × List Char) : List Piece × List Char :=
  (p :: read.1, read.2)

/-- Reads a string literal after its opening quote: its pieces and what follows the closing quote.
Control characters must be escaped. -/
def readPieces? : List Char → Option (List Piece × List Char)
  | [] => none
  | '"' :: rest => some ([], rest)
  | '\\' :: 'u' :: a :: b :: c :: d :: rest =>
    match hexUnit? a b c d with
    | none => none
    | some u => (readPieces? rest).map (pieceCons (.unit u))
  | '\\' :: c :: rest =>
    match escaped? c with
    | none => none
    | some e => (readPieces? rest).map (pieceCons (.char e))
  | c :: rest =>
    if c.toNat < 0x20 || c == '\\' then none
    else (readPieces? rest).map (pieceCons (.char c))

/-- The characters that pieces denote. Two units that are a surrogate pair make one character; a
surrogate that stands alone denotes nothing. -/
def joined? : List Piece → Option (List Char)
  | [] => some []
  | .char c :: ps => (joined? ps).map (c :: ·)
  | .unit u :: ps =>
    if isHighSurrogate u then
      match ps with
      | .unit v :: ps =>
        if isLowSurrogate v then
          (joined? ps).map
            (Char.ofNat (0x10000 + (u - 0xD800) * 0x400 + (v - 0xDC00)) :: ·)
        else none
      | _ => none
    else if isLowSurrogate u then none
    else (joined? ps).map (Char.ofNat u :: ·)

/-- Reads a string literal after its opening quote as the text that it denotes. -/
def readString? (cs : List Char) : Option (Option String × List Char) :=
  (readPieces? cs).map fun (pieces, rest) => ((joined? pieces).map String.ofList, rest)

/-! ## Numerals -/

/-- One digit or more, and the rest. -/
def readDigits? (cs : List Char) : Option (List Char × List Char) :=
  match Decimal.Digits.span cs with
  | ([], _) => none
  | (ds, rest) => some (ds, rest)

/-- The digits before the decimal point: a zero stands alone. -/
def readWhole? (cs : List Char) : Option (List Char × List Char) :=
  match readDigits? cs with
  | none => none
  | some ('0' :: _ :: _, _) => none
  | some read => some read

/-- A decimal point and its digits, if the text goes on with a point. -/
def readFraction? (cs : List Char) : Option (Option (List Char) × List Char) :=
  match cs with
  | '.' :: rest => (readDigits? rest).map fun (ds, rest) => (some ds, rest)
  | _ => some (none, cs)

/-- The sign of an exponent, plus if none is written. -/
def readSign (cs : List Char) : Bool × List Char :=
  match cs with
  | '+' :: rest => (false, rest)
  | '-' :: rest => (true, rest)
  | _ => (false, cs)

/-- An exponent, if the text goes on with its mark. -/
def readExponent? (cs : List Char) : Option (Option (Bool × List Char) × List Char) :=
  match cs with
  | c :: rest =>
    if c == 'e' || c == 'E' then
      let (minus, rest) := readSign rest
      (readDigits? rest).map fun (ds, rest) => (some (minus, ds), rest)
    else some (none, cs)
  | [] => some (none, [])

/-- A numeral after its sign. -/
def readUnsigned? (negative : Bool) (cs : List Char) : Option (Numeral × List Char) := do
  let (whole, cs) ← readWhole? cs
  let (fraction, cs) ← readFraction? cs
  let (exponent, cs) ← readExponent? cs
  return (⟨negative, whole, fraction, exponent⟩, cs)

def readNumeral? (cs : List Char) : Option (Numeral × List Char) :=
  match cs with
  | '-' :: rest => readUnsigned? true rest
  | _ => readUnsigned? false cs

/-! ## Values -/

mutual

/-- Reads one value. The fuel bounds the number of values on the way to any part of the document;
the length of the text is always enough. -/
def readValue? : Nat → List Char → Option (Document × List Char)
  | 0, _ => none
  | fuel + 1, cs =>
    match skipBlank cs with
    | 'n' :: 'u' :: 'l' :: 'l' :: rest => some (.null, rest)
    | 't' :: 'r' :: 'u' :: 'e' :: rest => some (.bool true, rest)
    | 'f' :: 'a' :: 'l' :: 's' :: 'e' :: rest => some (.bool false, rest)
    | '"' :: rest => (readString? rest).map fun (s, rest) => (.text s, rest)
    | '[' :: rest =>
      match skipBlank rest with
      | ']' :: rest => some (.list [], rest)
      | rest => (readItems? fuel rest).map fun (items, rest) => (.list items, rest)
    | '\x7b' :: rest =>
      match skipBlank rest with
      | '\x7d' :: rest => some (.object [], rest)
      | rest => (readEntries? fuel rest).map fun (entries, rest) => (.object entries, rest)
    | rest => (readNumeral? rest).map fun (n, rest) => (.number n, rest)

/-- Reads the items of a list up to its closing bracket; there is at least one. -/
def readItems? : Nat → List Char → Option (List Document × List Char)
  | 0, _ => none
  | fuel + 1, cs =>
    match readValue? fuel cs with
    | none => none
    | some (item, rest) =>
      match skipBlank rest with
      | ',' :: rest => (readItems? fuel rest).map fun (items, rest) => (item :: items, rest)
      | ']' :: rest => some ([item], rest)
      | _ => none

/-- Reads the entries of an object up to its closing brace; there is at least one. -/
def readEntries? : Nat → List Char → Option (List (Option String × Document) × List Char)
  | 0, _ => none
  | fuel + 1, cs =>
    match skipBlank cs with
    | '"' :: rest =>
      match readString? rest with
      | none => none
      | some (key, rest) =>
        match skipBlank rest with
        | ':' :: rest =>
          match readValue? fuel rest with
          | none => none
          | some (value, rest) =>
            match skipBlank rest with
            | ',' :: rest =>
              (readEntries? fuel rest).map fun (entries, rest) => ((key, value) :: entries, rest)
            | '\x7d' :: rest => some ([(key, value)], rest)
            | _ => none
        | _ => none
    | _ => none

end

@[simp] theorem readValue?_zero (cs : List Char) : readValue? 0 cs = none := by rw [readValue?]

@[simp] theorem readItems?_zero (cs : List Char) : readItems? 0 cs = none := by rw [readItems?]

@[simp] theorem readEntries?_zero (cs : List Char) : readEntries? 0 cs = none := by
  rw [readEntries?]

/-- Reads a whole text as one document. -/
def ofChars? (cs : List Char) : Option Document :=
  match readValue? (cs.length + 1) cs with
  | none => none
  | some (d, rest) => if skipBlank rest = [] then some d else none

def ofString? (s : String) : Option Document := ofChars? s.toList

end Document

end Downline.Json
