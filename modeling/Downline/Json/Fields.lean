import Downline.Json.Value

/-!
# Fields of typed documents

A typed document is an object with fields that are known by name, or a list of the same fields in
their declared order. In an object a known field may occur once only; an entry that is not known is
passed over, whatever its value. In a list there may be fewer items than fields but not more; the
fields at the end are then absent.

Which fields may be absent, and what they mean, is for the reader of the type to say.
-/

namespace Downline.Json.Document

/-- The documents found for known fields, in the declared order of the fields. -/
abbrev Slots := List (Option Document)

/-- Puts a document into the slot of its field; a slot that is taken is a fault, a field that is not
known leaves the slots as they are. -/
def fill? : List String → Slots → String → Document → Option Slots
  | name :: names, slot :: slots, key, d =>
    if name = key then
      match slot with
      | none => some (some d :: slots)
      | some _ => none
    else (fill? names slots key d).map (slot :: ·)
  | _, slots, _, _ => some slots

/-- Fills slots from the entries of an object. A key that denotes no text is a fault. -/
def fillAll? (names : List String) : Slots → List (Option String × Document) → Option Slots
  | slots, [] => some slots
  | _, (none, _) :: _ => none
  | slots, (some key, d) :: entries =>
    match fill? names slots key d with
    | none => none
    | some slots => fillAll? names slots entries

/-- The fields of a typed document. -/
def slots? (names : List String) : Document → Option Slots
  | .object entries => fillAll? names (names.map fun _ => none) entries
  | .list items =>
    if items.length ≤ names.length then
      some (items.map some ++ List.replicate (names.length - items.length) none)
    else none
  | _ => none

/-- The document found at a place among the declared fields. -/
def slot (slots : Slots) (place : Nat) : Option Document := (slots[place]?).join

/-- A field that must be there. -/
def required? {α : Type} (read : Document → Option α) (field : Option Document) : Option α :=
  field.bind read

/-- A field that has a value of its own when it is absent. -/
def defaulting? {α : Type} (absent : α) (read : Document → Option α) (field : Option Document) :
    Option α :=
  match field with
  | none => some absent
  | some d => read d

/-- Reads a document that may be `null`. -/
def nullable? {α : Type} (read : Document → Option α) : Document → Option (Option α)
  | .null => some none
  | d => (read d).map some

/-- The text of a document. -/
def text? : Document → Option String
  | .text s => s
  | _ => none

/-- The whole number of a document, if it fits 64 bits without sign. -/
def uint64? : Document → Option UInt64
  | .number n => n.uint64?
  | _ => none

/-- The name of a variant without data: the name itself, or an object whose only entry maps the name
to `null`. -/
def variant? : Document → Option String
  | .text s => s
  | .object [(some s, .null)] => some s
  | _ => none

/-- Reads a variant by its name. -/
def oneOf? {α : Type} (ofName? : String → Option α) (d : Document) : Option α :=
  d.variant?.bind ofName?

end Downline.Json.Document
