import Downline.Json.Document

/-!
# String literals of TOML

A literal stands between double quotes, where a backslash begins an escape, or between single
quotes, where every character stands for itself. Between three quotes of either kind it may have
several lines: a line break right behind the opening quotes does not count, a line break of two
characters counts as one, and up to two quotes may stand inside, also right in front of the closing
ones. Control characters other than the tab cannot stand in a literal; they must be escaped.

Literals between double quotes are read by a small machine whose `Mode` says what the escape in
progress still needs. It takes one character at a time, and each character gives at most one
character of the text.
-/

namespace Downline.Toml

/-- Blanks within a line. -/
def isBlank (c : Char) : Bool := c == ' ' || c == '\t'

def skipBlank (cs : List Char) : List Char := cs.dropWhile isBlank

/-- Control characters other than the tab; the line feed is one. -/
def isControl (c : Char) : Bool := (c.toNat < 0x20 && c != '\t') || c.toNat == 0x7f

/-- What follows the line break that a text begins with. -/
def afterNewline? : List Char → Option (List Char)
  | '\n' :: rest => some rest
  | '\r' :: '\n' :: rest => some rest
  | _ => none

/-- A text without the line break that it may begin with. -/
def dropNewline (cs : List Char) : List Char := (afterNewline? cs).getD cs

/-- Puts characters in front of the text that has been read. -/
def textCons (out : List Char) (read : List Char × List Char) : List Char × List Char :=
  (out ++ read.1, read.2)

/-! ## Between double quotes -/

/-- The character that an escape of a single letter stands for. -/
def escaped? (c : Char) : Option Char :=
  match c with
  | 'b' => some '\x08'
  | 't' => some '\t'
  | 'n' => some '\n'
  | 'f' => some '\x0c'
  | 'r' => some '\r'
  | '"' => some '"'
  | '\\' => some '\\'
  | _ => none

/-- What the reading of a literal is in the middle of. -/
inductive Mode where
  | plain
  /-- Behind a backslash. -/
  | escape
  /-- In the digits of a code point: how many more than one are missing, and what the others spell.
  -/
  | code (missing read : Nat)
  /-- Behind a backslash and blanks that must lead to the end of the line. -/
  | lineEnd
  /-- Behind a backslash at the end of a line: blanks and line breaks do not count. -/
  | skip
  deriving DecidableEq, Repr

namespace Mode

/-- Takes one character: the mode after it, and the characters of the text that it completes. -/
def next? : Mode → Char → Option (Mode × List Char)
  | escape, c =>
    if c = 'u' then some (code 3 0, [])
    else if c = 'U' then some (code 7 0, [])
    else (escaped? c).map fun e => (plain, [e])
  | code missing read, c =>
    match Json.Document.hexValue? c, missing with
    | none, _ => none
    | some d, m + 1 => some (code m (read * 16 + d), [])
    | some d, 0 =>
      if (read * 16 + d).isValidChar then some (plain, [Char.ofNat (read * 16 + d)]) else none
  | lineEnd, _ => none
  | _, c =>
    if c = '\\' then some (escape, [])
    else if isControl c then none
    else some (plain, [c])

/-- Takes one character of a literal of several lines. -/
def nextLong? (m : Mode) (c : Char) : Option (Mode × List Char) :=
  match m with
  | plain => if c = '\n' then some (plain, ['\n']) else plain.next? c
  | escape =>
    if c = '\n' then some (skip, [])
    else if isBlank c then some (lineEnd, [])
    else escape.next? c
  | lineEnd =>
    if c = '\n' then some (skip, []) else if isBlank c then some (lineEnd, []) else none
  | skip => if c = '\n' ∨ isBlank c then some (skip, []) else plain.next? c
  | code missing read => (code missing read).next? c

/-- True if no escape is in progress, so that a quote may close the literal. -/
def isOpen : Mode → Bool
  | plain => true
  | skip => true
  | _ => false

end Mode

/-- Reads a literal of one line after its opening quote: the text, and what follows the closing
quote. -/
def readBasic? (m : Mode) : List Char → Option (List Char × List Char)
  | [] => none
  | c :: rest =>
    if c = '"' ∧ m.isOpen then some ([], rest)
    else
      match m.next? c with
      | none => none
      | some (m, out) => (readBasic? m rest).map (textCons out)

/-- The quotes that end a literal of several lines, if a text begins with them: those that belong to
the text, and what follows. -/
def closing? (quote : Char) : List Char → Option (List Char × List Char)
  | a :: b :: c :: rest =>
    if a = quote ∧ b = quote ∧ c = quote then
      match rest with
      | d :: e :: rest =>
        if d = quote ∧ e = quote then some ([quote, quote], rest)
        else if d = quote then some ([quote], e :: rest)
        else some ([], d :: e :: rest)
      | [d] => if d = quote then some ([quote], []) else some ([], [d])
      | [] => some ([], [])
    else none
  | _ => none

/-- Reads a literal of several lines after its opening quotes. -/
def readLongBasic? (m : Mode) : List Char → Option (List Char × List Char)
  | [] => none
  | c :: rest =>
    match if m.isOpen then closing? '"' (c :: rest) else none with
    | some read => some read
    | none =>
      match c, rest with
      | '\r', '\n' :: rest =>
        match m.nextLong? '\n' with
        | none => none
        | some (m, out) => (readLongBasic? m rest).map (textCons out)
      | c, rest =>
        match m.nextLong? c with
        | none => none
        | some (m, out) => (readLongBasic? m rest).map (textCons out)

/-! ## Between single quotes -/

/-- Reads a literal of one line after its opening quote. -/
def readLiteral? : List Char → Option (List Char × List Char)
  | [] => none
  | c :: rest =>
    if c = '\'' then some ([], rest)
    else if isControl c then none
    else (readLiteral? rest).map (textCons [c])

/-- Reads a literal of several lines after its opening quotes. -/
def readLongLiteral? : List Char → Option (List Char × List Char)
  | [] => none
  | c :: rest =>
    match closing? '\'' (c :: rest) with
    | some read => some read
    | none =>
      match c, rest with
      | '\r', '\n' :: rest => (readLongLiteral? rest).map (textCons ['\n'])
      | c, rest =>
        if c ≠ '\n' ∧ isControl c then none
        else (readLongLiteral? rest).map (textCons [c])

/-! ## All literals -/

/-- Reads a literal of one line, as it may stand for a key. -/
def readShort? : List Char → Option (List Char × List Char)
  | '"' :: rest => readBasic? .plain rest
  | '\'' :: rest => readLiteral? rest
  | _ => none

/-- Reads a literal. -/
def readText? : List Char → Option (List Char × List Char)
  | '"' :: '"' :: '"' :: rest => readLongBasic? .plain (dropNewline rest)
  | '\'' :: '\'' :: '\'' :: rest => readLongLiteral? (dropNewline rest)
  | cs => readShort? cs

end Downline.Toml
