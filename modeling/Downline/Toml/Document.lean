import Downline.Toml.Literal
import Downline.Toml.Moment
import Downline.Toml.Table

/-!
# Reading TOML documents

A document is read line by line into statements: a key with its value, the header of a table, or the
header of a table in a list. Values may go over several lines inside brackets. The statements below
a header fill its table, and those in front of the first header the document itself.
-/

namespace Downline.Toml

/-! ## Keys -/

/-- The characters of a name without quotes. -/
def isBareChar (c : Char) : Bool := c.isAlphanum || c == '_' || c == '-'

/-- Reads one name of a key. -/
def readName? (cs : List Char) : Option (String × List Char) :=
  match cs with
  | '"' :: _ => (readShort? cs).map fun (name, rest) => (String.ofList name, rest)
  | '\'' :: _ => (readShort? cs).map fun (name, rest) => (String.ofList name, rest)
  | _ =>
    match cs.span isBareChar with
    | ([], _) => none
    | (name, rest) => some (String.ofList name, rest)

/-- The number of names that a key may have. -/
def keyLimit : Nat := 79

/-- Reads a key of at most so many names, and the blanks around them. -/
def readKeyUpTo? : Nat → List Char → Option (Key × List Char)
  | 0, _ => none
  | limit + 1, cs =>
    match readName? (skipBlank cs) with
    | none => none
    | some (name, rest) =>
      match skipBlank rest with
      | '.' :: rest =>
        (readKeyUpTo? limit rest).map fun (key, rest) => (⟨name :: key.path, key.name⟩, rest)
      | rest => some (⟨[], name⟩, rest)

def readKey? (cs : List Char) : Option (Key × List Char) := readKeyUpTo? keyLimit cs

/-! ## Values -/

/-- Reads a value without parts. -/
def readScalar? (cs : List Char) : Option (Value × List Char) :=
  match cs with
  | 't' :: 'r' :: 'u' :: 'e' :: rest => some (.bool true, rest)
  | 'f' :: 'a' :: 'l' :: 's' :: 'e' :: rest => some (.bool false, rest)
  | c :: _ =>
    if c = '"' ∨ c = '\'' then (readText? cs).map fun (s, rest) => (.text (String.ofList s), rest)
    else
      match readMoment? cs with
      | some read => some read
      | none => readNumber? cs
  | [] => none

/-- Skips blanks, line breaks and comments, which end with their line. -/
def skipLines? (comment : Bool) : List Char → Option (List Char)
  | [] => if comment then none else some []
  | '\r' :: '\n' :: rest => skipLines? false rest
  | c :: rest =>
    if c = '\n' then skipLines? false rest
    else if comment then if isControl c then none else skipLines? true rest
    else if isBlank c then skipLines? false rest
    else if c = '#' then skipLines? true rest
    else some (c :: rest)

/-- Reads the items of a list up to its closing bracket, each by `item`. A comma may stand behind
the last one. The fuel bounds their number. -/
def readItems? (item : List Char → Option (Value × List Char)) :
    Nat → List Char → Option (List Value × List Char)
  | 0, _ => none
  | fuel + 1, cs =>
    match skipLines? false cs with
    | none => none
    | some (']' :: rest) => some ([], rest)
    | some cs =>
      match item cs with
      | none => none
      | some (v, rest) =>
        match skipLines? false rest with
        | some (',' :: rest) => (readItems? item fuel rest).map fun (vs, rest) => (v :: vs, rest)
        | some (']' :: rest) => some ([v], rest)
        | _ => none

/-- Reads a key and its value, and the blanks behind it. -/
def readAssignment? (item : List Char → Option (Value × List Char)) (cs : List Char) :
    Option ((Key × Value) × List Char) :=
  match readKey? cs with
  | some (key, '=' :: rest) =>
    (item (skipBlank rest)).map fun (v, rest) => ((key, v), skipBlank rest)
  | _ => none

/-- Reads assignments with commas between them up to the closing brace; there is at least one. The
fuel bounds their number. -/
def readAssignments? (item : List Char → Option (Value × List Char)) :
    Nat → List Char → Option (List (Key × Value) × List Char)
  | 0, _ => none
  | fuel + 1, cs =>
    match readAssignment? item cs with
    | some (a, ',' :: rest) =>
      (readAssignments? item fuel rest).map fun (as, rest) => (a :: as, rest)
    | some (a, '\x7d' :: rest) => some ([a], rest)
    | _ => none

/-- The number of lists and tables that a value may be nested in. -/
def nestingLimit : Nat := 79

/-- Reads a value whose lists and tables are nested at most so many levels. -/
def readValueUpTo? : Nat → List Char → Option (Value × List Char)
  | 0, cs => readScalar? cs
  | levels + 1, cs =>
    match cs with
    | '[' :: rest =>
      (readItems? (readValueUpTo? levels) (rest.length + 1) rest).map fun (vs, rest) =>
        (.list vs, rest)
    | '\x7b' :: rest =>
      match skipBlank rest with
      | '\x7d' :: rest => some (.table [], rest)
      | rest => do
        let (assignments, rest) ←
          readAssignments? (readValueUpTo? levels) (rest.length + 1) rest
        let entries ← Entries.assignAll? [] assignments
        return (.table entries.values, rest)
    | cs => readScalar? cs

def readValue? (cs : List Char) : Option (Value × List Char) := readValueUpTo? nestingLimit cs

/-! ## Lines -/

/-- One statement of a document. -/
inductive Statement where
  | assignment (key : Key) (value : Value)
  | header (key : Key)
  | elementHeader (key : Key)
  deriving Repr

/-- What follows the end of a line, in front of which blanks and a comment may stand. The end of the
text ends its line. -/
def afterLine? (cs : List Char) : Option (List Char) :=
  let behind := match skipBlank cs with
    | '#' :: rest => rest.dropWhile fun c => !isControl c
    | rest => rest
  if behind = [] then some [] else afterNewline? behind

/-- Reads a statement. -/
def readStatement? (cs : List Char) : Option (Statement × List Char) :=
  match cs with
  | '[' :: '[' :: rest =>
    match readKey? rest with
    | some (key, ']' :: ']' :: rest) => some (.elementHeader key, rest)
    | _ => none
  | '[' :: rest =>
    match readKey? rest with
    | some (key, ']' :: rest) => some (.header key, rest)
    | _ => none
  | cs => (readAssignment? readValue? cs).map fun ((key, v), rest) => (.assignment key v, rest)

/-- True if a line holds nothing but blanks and a comment. -/
def isEmptyLine (cs : List Char) : Bool :=
  match skipBlank cs with
  | [] => true
  | c :: _ => c == '\n' || c == '\r' || c == '#'

/-- Reads the lines of a document. The fuel bounds their number. -/
def readLines? : Nat → List Char → Option (List Statement)
  | _, [] => some []
  | 0, _ :: _ => none
  | fuel + 1, c :: cs =>
    if isEmptyLine (c :: cs) then (afterLine? (c :: cs)).bind (readLines? fuel)
    else
      match readStatement? (skipBlank (c :: cs)) with
      | none => none
      | some (s, rest) => ((afterLine? rest).bind (readLines? fuel)).map (s :: ·)

/-- The statements of a document. A byte order mark in front does not count. -/
def readStatements? (cs : List Char) : Option (List Statement) :=
  let cs := match cs with
    | '\ufeff' :: rest => rest
    | cs => cs
  readLines? cs.length cs

/-! ## Sections -/

/-- The assignments that a list of statements begins with, and what follows. -/
def leadingAssignments : List Statement → List (Key × Value) × List Statement
  | .assignment key v :: rest =>
    let (front, rest) := leadingAssignments rest
    ((key, v) :: front, rest)
  | rest => ([], rest)

theorem length_leadingAssignments (statements : List Statement) :
    (leadingAssignments statements).2.length ≤ statements.length := by
  induction statements with
  | nil => simp [leadingAssignments]
  | cons s rest ih =>
    cases s with
    | assignment key v => simp only [leadingAssignments, List.length_cons]; omega
    | header key => simp [leadingAssignments]
    | elementHeader key => simp [leadingAssignments]

/-- Adds the statements to a document. Those behind a header fill its table; assignments in front of
the first header belong to the document itself. -/
def assemble? (es : Entries) (statements : List Statement) : Option Entries :=
  match statements with
  | [] => some es
  | .assignment key v :: rest =>
    (es.assign? true key.path key.name v).bind fun es => assemble? es rest
  | .header key :: rest =>
    let fill := fun sub => Entries.assignAll? sub (leadingAssignments rest).1
    (es.within? (Entries.openTable? fill key.name) key.path).bind fun es =>
      assemble? es (leadingAssignments rest).2
  | .elementHeader key :: rest =>
    let fill := fun sub => Entries.assignAll? sub (leadingAssignments rest).1
    (es.within? (Entries.openElement? fill key.name) key.path).bind fun es =>
      assemble? es (leadingAssignments rest).2
termination_by statements.length
decreasing_by
  · simp
  · have := length_leadingAssignments rest
    simp only [List.length_cons]
    omega
  · have := length_leadingAssignments rest
    simp only [List.length_cons]
    omega

/-- Reads a document as the entries of its top table. -/
def readDocument? (text : String) : Option (List (String × Value)) := do
  let statements ← readStatements? text.toList
  let es ← assemble? [] statements
  return es.values

end Downline.Toml
