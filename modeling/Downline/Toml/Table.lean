import Downline.Toml.Value

/-!
# Putting tables together

A document names its tables in three ways: by a header, as a step on the way of a longer header, and
as a step on the way of a dotted key. What a table may still take depends on how it came about, its
`Origin`:

* a table with a header of its own, and one written between braces, takes nothing more from outside;
* a table that longer headers only passed through may still get its header;
* a table that dotted keys made may get more dotted keys, and headers may pass through it.

A step that leads to a list of tables goes on in the last of them. No name is given twice.
-/

namespace Downline.Toml

/-- How a table came about. -/
inductive Origin where
  /-- By its own header. -/
  | header
  /-- By a longer header. -/
  | passage
  /-- By a dotted key. -/
  | dotted
  deriving DecidableEq, Repr

/-- What a name stands for in a document that is being put together. -/
inductive Node where
  | value (v : Value)
  | table (origin : Origin) (entries : List (String × Node))
  /-- A list of tables, each with a header of its own. -/
  | tables (elements : List (List (String × Node)))
  deriving Repr

/-- The entries of a table that is being put together. -/
abbrev Entries := List (String × Node)

namespace Entries

/-- Gives a name a new meaning, in its old place if it had one. -/
def put (es : Entries) (name : String) (node : Node) : Entries :=
  if (es.lookup name).isSome then es.map fun (k, old) => (k, if k = name then node else old)
  else es ++ [(name, node)]

/-- Gives a name its first meaning. -/
def putNew? (es : Entries) (name : String) (node : Node) : Option Entries :=
  if (es.lookup name).isSome then none else some (es.put name node)

/-- Changes the last table of a list. -/
def inLast? (f : Entries → Option Entries) (elements : List Entries) : Option (List Entries) :=
  match elements.getLast? with
  | none => none
  | some last => (f last).map fun last => elements.dropLast ++ [last]

/-- Gives a dotted key its value. `free` tells whether the table at hand may take values: it is the
one that the key was written in, or one that dotted keys made. -/
def assign? (free : Bool) (es : Entries) : List String → String → Value → Option Entries
  | [], name, v => if free then es.putNew? name (.value v) else none
  | step :: path, name, v =>
    match es.lookup step with
    | none => (assign? true [] path name v).map fun sub => es.put step (.table .dotted sub)
    | some (.value _) => none
    | some (.tables elements) =>
      (inLast? (fun last => assign? false last path name v) elements).map fun elements =>
        es.put step (.tables elements)
    | some (.table .header _) => none
    | some (.table origin sub) =>
      (assign? (origin == .dotted) sub path name v).map fun sub => es.put step (.table origin sub)

/-- Changes the table that a header's path leads to, passing through new tables where there are
none. -/
def within? (f : Entries → Option Entries) (es : Entries) : List String → Option Entries
  | [] => f es
  | step :: path =>
    match es.lookup step with
    | none => (within? f [] path).map fun sub => es.put step (.table .passage sub)
    | some (.value _) => none
    | some (.tables elements) =>
      (inLast? (fun last => within? f last path) elements).map fun elements =>
        es.put step (.tables elements)
    | some (.table origin sub) =>
      (within? f sub path).map fun sub => es.put step (.table origin sub)

/-- Gives a table its header and fills it. -/
def openTable? (fill : Entries → Option Entries) (name : String) (es : Entries) : Option Entries :=
  match es.lookup name with
  | none => (fill []).map fun sub => es.put name (.table .header sub)
  | some (.table .passage sub) => (fill sub).map fun sub => es.put name (.table .header sub)
  | some _ => none

/-- Fills a new table at the end of a list of tables. -/
def openElement? (fill : Entries → Option Entries) (name : String) (es : Entries) :
    Option Entries :=
  match es.lookup name with
  | none => (fill []).map fun sub => es.put name (.tables [sub])
  | some (.tables elements) => (fill []).map fun sub => es.put name (.tables (elements ++ [sub]))
  | some _ => none

/-- Gives several dotted keys their values, in order. -/
def assignAll? (es : Entries) : List (Key × Value) → Option Entries
  | [] => some es
  | (key, v) :: rest =>
    match es.assign? true key.path key.name v with
    | none => none
    | some es => assignAll? es rest

end Entries

mutual

/-- The value of a name once the document is complete. -/
def Node.toValue : Node → Value
  | .value v => v
  | .table _ es => .table (entriesToValues es)
  | .tables elements => .list (elementsToValues elements)

def entriesToValues : List (String × Node) → List (String × Value)
  | [] => []
  | (name, node) :: es => (name, node.toValue) :: entriesToValues es

def elementsToValues : List (List (String × Node)) → List Value
  | [] => []
  | es :: elements => .table (entriesToValues es) :: elementsToValues elements

end

/-- The values of all names. -/
def Entries.values (es : Entries) : List (String × Value) := entriesToValues es

end Downline.Toml
