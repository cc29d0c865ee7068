import Downline.Record.Basic
import Downline.Json.Fields
import Downline.Json.Writer

/-!
# Records as JSON

Writing a record names all its fields. Reading one needs `node_id`, `name` and `status`; rank is
empty, volumes are zero, and parent and leg are absent unless given.
-/

namespace Downline.Record

open Json

/-- The fields of a record in their declared order. -/
def fieldNames : List String :=
  ["node_id", "name", "rank", "pv_left", "pv_right", "status", "parent_node_id", "position"]

/-- A record as a JSON value. -/
def toValue (r : Record) : Value :=
  .object [
    ("node_id", .text r.member.id),
    ("name", .text r.member.name),
    ("rank", .text r.member.rank),
    ("pv_left", .ofUInt64 r.member.pvLeft),
    ("pv_right", .ofUInt64 r.member.pvRight),
    ("status", .text r.member.status.name),
    ("parent_node_id", .ofOption r.parentId),
    ("position", .ofOption (r.leg.map Leg.letter))]

/-- The record that a document describes. -/
def ofDocument? (d : Document) : Option Record := do
  let slots ← d.slots? fieldNames
  let id ← Document.required? Document.text? (Document.slot slots 0)
  let name ← Document.required? Document.text? (Document.slot slots 1)
  let rank ← Document.defaulting? "" Document.text? (Document.slot slots 2)
  let pvLeft ← Document.defaulting? 0 Document.uint64? (Document.slot slots 3)
  let pvRight ← Document.defaulting? 0 Document.uint64? (Document.slot slots 4)
  let status ← Document.required? (Document.oneOf? Status.ofName?) (Document.slot slots 5)
  let parentId ←
    Document.defaulting? none (Document.nullable? Document.text?) (Document.slot slots 6)
  let leg ←
    Document.defaulting? none (Document.nullable? (Document.oneOf? Leg.ofLetter?))
      (Document.slot slots 7)
  return ⟨⟨id, name, rank, pvLeft, pvRight, status⟩, parentId, leg⟩

/-- Reads the text of one record. -/
def ofJson? (s : String) : Option Record := (Document.ofString? s).bind ofDocument?

/-- Reads every document of a list as a record. -/
def listOfDocument? : Document → Option (List Record)
  | .list items => items.mapM ofDocument?
  | _ => none

/-- Reads the text of a list of records. -/
def listOfJson? (s : String) : Option (List Record) :=
  (Document.ofString? s).bind listOfDocument?

/-- The text of a list of records. -/
def listToJson (rs : List Record) : String := (Value.list (rs.map toValue)).compact

end Downline.Record
