import Downline.Organization.Levels
import Downline.Json.Fields
import Downline.Json.Writer

/-!
# Organizations as JSON

A node is an object with the six fields of its member and its children; a node without children is
written without that field. Reading a node needs all six fields of the member. The children are
nodes themselves, to any depth.

Rows are written as lists of entries, each with the six fields, its depth and its number of
children.
-/

namespace Downline

open Json

namespace Member

/-- The fields of a member in a nested tree or a row. -/
def toEntries (m : Member) : Entries := [
  ("id", .text m.id),
  ("name", .text m.name),
  ("rank", .text m.rank),
  ("pvLeft", .ofUInt64 m.pvLeft),
  ("pvRight", .ofUInt64 m.pvRight),
  ("status", .text m.status.name)]

/-- The member that the first six fields of a node describe; all must be there. -/
def ofSlots? (slots : Document.Slots) : Option Member := do
  let id ← Document.required? Document.text? (Document.slot slots 0)
  let name ← Document.required? Document.text? (Document.slot slots 1)
  let rank ← Document.required? Document.text? (Document.slot slots 2)
  let pvLeft ← Document.required? Document.uint64? (Document.slot slots 3)
  let pvRight ← Document.required? Document.uint64? (Document.slot slots 4)
  let status ← Document.required? (Document.oneOf? Status.ofName?) (Document.slot slots 5)
  return ⟨id, name, rank, pvLeft, pvRight, status⟩

end Member

namespace Organization

/-- The name of the field that holds the children. -/
def childrenField : String := "children"

/-- The fields of a node in their declared order. -/
def fieldNames : List String :=
  ["id", "name", "rank", "pvLeft", "pvRight", "status", childrenField]

mutual

/-- An organization as a JSON value. -/
def toValue : Organization → Value
  | node m [] => .object m.toEntries
  | node m (c :: cs) =>
    .object (m.toEntries ++ [(childrenField, .list (toValues (c :: cs)))])

def toValues : List Organization → List Value
  | [] => []
  | o :: os => o.toValue :: toValues os

end

/-- The text of an organization. -/
def toJson (o : Organization) : String := o.toValue.compact

mutual

/-- The organization that a document describes. -/
def ofDocument? : Document → Option Organization
  | .object entries =>
    match Document.slots? fieldNames (.object entries) with
    | none => none
    | some slots =>
      match Member.ofSlots? slots, childrenOfEntries? entries with
      | some m, some cs => some (node m cs)
      | _, _ => none
  | .list items =>
    match Document.slots? fieldNames (.list items) with
    | none => none
    | some slots =>
      match Member.ofSlots? slots, childrenOfItems? 6 items with
      | some m, some cs => some (node m cs)
      | _, _ => none
  | _ => none

/-- The organizations that the items of a list describe. -/
def ofDocuments? : List Document → Option (List Organization)
  | [] => some []
  | d :: ds =>
    match ofDocument? d, ofDocuments? ds with
    | some o, some os => some (o :: os)
    | _, _ => none

/-- The children described by a document, which must be a list. -/
def children? : Document → Option (List Organization)
  | .list items => ofDocuments? items
  | _ => none

/-- The children among the entries of a node, none if the field is absent. -/
def childrenOfEntries? : List (Option String × Document) → Option (List Organization)
  | [] => some []
  | (key, d) :: entries =>
    if key = some childrenField then children? d else childrenOfEntries? entries

/-- The children among the items of a node written as a list, at the given distance. -/
def childrenOfItems? : Nat → List Document → Option (List Organization)
  | _, [] => some []
  | 0, d :: _ => children? d
  | n + 1, _ :: ds => childrenOfItems? n ds

end

/-- Reads the text of one organization. -/
def ofJson? (s : String) : Option Organization := (Document.ofString? s).bind ofDocument?

end Organization

namespace LevelEntry

def toValue (e : LevelEntry) : Value :=
  .object (e.member.toEntries ++ [
    ("depth", .ofUInt64 e.depth.toUInt64),
    ("childCount", .ofUInt64 e.childCount.toUInt64)])

end LevelEntry

/-- Rows as a JSON value: a list of lists. -/
def Levels.toValue (l : Levels) : Value :=
  .list (l.rows.map fun row => .list (row.map LevelEntry.toValue))

end Downline
