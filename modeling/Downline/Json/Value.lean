import Downline.Json.Document

/-!
# Free-form JSON values

A `Value` is what a free-form document means. Against the bare grammar it asks for more: every text
denotes characters, every number is in range and nesting has a limit. A repeated key keeps its first
place and its last value, so the keys of an object that has been read are distinct.
-/

namespace Downline.Json

/-- A free-form JSON value; an object keeps its entries in order. -/
inductive Value where
  | null
  | bool (b : Bool)
  | number (n : Number)
  | text (s : String)
  | list (items : List Value)
  | object (entries : List (String × Value))
  deriving Repr

/-- The entries of an object, in order. -/
abbrev Entries := List (String × Value)

namespace Entries

/-- The value under a key. -/
def get? (e : Entries) (key : String) : Option Value := e.lookup key

/-- Puts a value under a key: in place of the old one if there is one, otherwise at the end. -/
def insert (e : Entries) (key : String) (v : Value) : Entries :=
  match e with
  | [] => [(key, v)]
  | (k, w) :: e => if k = key then (k, v) :: e else (k, w) :: Entries.insert e key v

/-- The entries without the given key; the others keep their order. -/
def erase (e : Entries) (key : String) : Entries := e.filter fun (k, _) => k != key

end Entries

namespace Value

/-- The value under a key of an object; `none` for anything else. -/
def get? (v : Value) (key : String) : Option Value :=
  match v with
  | .object entries => Entries.get? entries key
  | _ => none

/-- The entries of an object, none for anything else. -/
def entries : Value → Entries
  | .object entries => entries
  | _ => []

def isObject : Value → Bool
  | .object _ => true
  | _ => false

def isNull : Value → Bool
  | .null => true
  | _ => false

/-- True of the text without characters. -/
def isEmptyText : Value → Bool
  | .text s => s == ""
  | _ => false

/-- The characters of a text. -/
def text? : Value → Option String
  | .text s => some s
  | _ => none

end Value

namespace Document

mutual

/-- Number of lists and objects around the innermost part. -/
def nesting : Document → Nat
  | .list items => nestingOfItems items + 1
  | .object entries => nestingOfEntries entries + 1
  | _ => 0

def nestingOfItems : List Document → Nat
  | [] => 0
  | d :: ds => max d.nesting (nestingOfItems ds)

def nestingOfEntries : List (Option String × Document) → Nat
  | [] => 0
  | (_, d) :: es => max d.nesting (nestingOfEntries es)

end

mutual

/-- What a document means, if all its texts and numbers mean something. -/
def value? : Document → Option Value
  | .null => some .null
  | .bool b => some (.bool b)
  | .number n => n.number?.map .number
  | .text s => s.map .text
  | .list items => (valueOfItems? items).map .list
  | .object entries => (valueOfEntries? entries []).map .object

def valueOfItems? : List Document → Option (List Value)
  | [] => some []
  | d :: ds =>
    match d.value? with
    | none => none
    | some v => (valueOfItems? ds).map (v :: ·)

/-- The entries of an object, added one by one to those already read. -/
def valueOfEntries? : List (Option String × Document) → Entries → Option Entries
  | [], read => some read
  | (key, d) :: es, read =>
    match key, d.value? with
    | some key, some v => valueOfEntries? es (Entries.insert read key v)
    | _, _ => none

end

end Document

namespace Value

/-- Deepest nesting of a free-form document. -/
def nestingLimit : Nat := 127

/-- Reads a text as a free-form value. -/
def ofString? (s : String) : Option Value :=
  match Document.ofString? s with
  | none => none
  | some d => if d.nesting ≤ nestingLimit then d.value? else none

end Value

end Downline.Json
