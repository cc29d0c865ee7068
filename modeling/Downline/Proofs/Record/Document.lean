import Downline.Proofs.Organization.Loading

/-!
# Records as documents

A list of records is written with every field of every record in its place, absent ones as `null`,
and read by a reader that would do with fewer fields and with other spellings. On what the writer
writes the reader answers the records themselves (`listOfJson?_listToJson`): a parent without an id
stays apart from one whose id is empty, and volumes keep all of their digits.

So a list of records that has been written to a file loads as what is built from the list, whether
that is an arena or a fault (`loadArena_listToJson`).
-/

namespace Downline

open Json

namespace Record

/-- What stands for a text that may be absent. -/
def optional : Option String → Document
  | none => .null
  | some s => .text (some s)

theorem written_optional (s : Option String) : Written (.ofOption s) (optional s) := by
  cases s with
  | none =>
    refine ⟨['n', 'u', 'l', 'l'], fun rest => ?_, Document.reads_null⟩
    rw [Value.ofOption, Value.compactBefore]
    rfl
  | some s => exact .text s

/-- The entries of a record as the reader gets to see them. -/
def fields (r : Record) : List (Option String × Document) := [
  (some "node_id", .text (some r.member.id)),
  (some "name", .text (some r.member.name)),
  (some "rank", .text (some r.member.rank)),
  (some "pv_left", .number (.ofNat r.member.pvLeft.toNat)),
  (some "pv_right", .number (.ofNat r.member.pvRight.toNat)),
  (some "status", .text (some r.member.status.name)),
  (some "parent_node_id", optional r.parentId),
  (some "position", optional (r.leg.map Leg.letter))]

theorem written (r : Record) : Written r.toValue (.object r.fields) :=
  .object <|
    .cons ⟨rfl, .text _⟩ <| .cons ⟨rfl, .text _⟩ <| .cons ⟨rfl, .text _⟩ <|
    .cons ⟨rfl, .ofUInt64 _⟩ <| .cons ⟨rfl, .ofUInt64 _⟩ <| .cons ⟨rfl, .text _⟩ <|
    .cons ⟨rfl, written_optional _⟩ <| .cons ⟨rfl, written_optional _⟩ .nil

/-- An optional field is read as what it stands for, by any reader of texts that knows the text that
was written. -/
theorem nullable?_optional {α : Type} {read : Document → Option α} {spell : α → String}
    (hread : ∀ a, read (.text (some (spell a))) = some a) (a : Option α) :
    Document.nullable? read (optional (a.map spell)) = some a := by
  cases a with
  | none => rfl
  | some a => simp only [Option.map_some, optional, Document.nullable?, hread]

theorem oneOf?_text {α : Type} (ofName? : String → Option α) (s : String) :
    Document.oneOf? ofName? (.text (some s)) = ofName? s := rfl

/-- A record fills all slots. -/
theorem slots?_fields (r : Record) :
    Document.slots? fieldNames (.object r.fields) = some (r.fields.map (some ·.2)) := rfl

theorem ofDocument?_fields (r : Record) : ofDocument? (.object r.fields) = some r := by
  have hparent : Document.nullable? Document.text? (optional r.parentId) = some r.parentId := by
    have hread (s : String) : Document.text? (.text (some s)) = some s := rfl
    have hfield := nullable?_optional hread r.parentId
    rwa [Option.map_id'] at hfield
  have hleg : Document.nullable? (Document.oneOf? Leg.ofLetter?) (optional (r.leg.map Leg.letter)) =
      some r.leg :=
    nullable?_optional (fun l => (oneOf?_text _ _).trans (Leg.ofLetter?_letter l)) r.leg
  rw [ofDocument?, slots?_fields]
  simp [fields, Document.slot, Document.required?, Document.defaulting?, Document.text?,
    Member.uint64?_ofNat, oneOf?_text, Status.ofName?_name, hparent, hleg]

/-- **A list of records is read back from its text.** -/
theorem listOfJson?_listToJson (rs : List Record) : listOfJson? (listToJson rs) = some rs := by
  have hwritten : List.Forall₂ Written (rs.map toValue) (rs.map fun r => .object r.fields) :=
    List.forall₂_map_left_iff.mpr
      (List.forall₂_map_right_iff.mpr (List.forall₂_same.mpr fun r _ => r.written))
  rw [listOfJson?, listToJson, ofString?_compact (.list hwritten), Option.bind_some,
    listOfDocument?, List.mapM_map]
  have hread : (ofDocument? ∘ fun r => .object r.fields) = fun r => pure r :=
    funext ofDocument?_fields
  rw [hread, List.mapM_pure, List.map_id']
  rfl

end Record

namespace Organization

open Files

/-- What a builder says of a list does not hang on the lists that it was given before. -/
theorem build_eq_ofRecords (b : Builder) (rs : List Record) :
    (b.build rs).1 = Arena.ofRecords rs := by
  cases rs <;> rfl

theorem arenaOfText_of_records {content : String} {rs : List Record}
    (h : Record.listOfJson? content = some rs) (path : String) :
    arenaOfText path content = (Arena.ofRecords rs).mapError Failure.domain := by
  simp only [arenaOfText, h]
  cases Arena.ofRecords rs <;> rfl

/-- **A list of records that has been written loads as what is built from it**, the arena or the
fault, whichever builder is asked. -/
theorem loadArena_listToJson (b : Builder) (rs : List Record) {path : String} {s : Store}
    (hfile : s.find? path = some (.file (Record.listToJson rs).toUTF8)) :
    (loadArena (m := StateM Store) path).run.run s =
      ((b.build rs).1.mapError Failure.domain, s) := by
  have hcontent := contentAt_of_find? hfile
  have harena := arenaOfText_of_records (Record.listOfJson?_listToJson rs) path
  rw [run_loadArena, hcontent, ok_bind, harena, build_eq_ofRecords]

/-- A member below a parent that the list does not hold, on a leg, with texts that have to be
escaped. -/
def strayRecords : List Record := [
  ⟨⟨"", "\"김\"\n", "\\\x7f", 0, 18446744073709551615, .hold⟩, none, none⟩,
  ⟨⟨"a", "\x00", "", 7, 0, .active⟩, some "null", some .right⟩]

theorem loadArena_listToJson_stray :
    let s := singleFile "org.json" (Record.listToJson strayRecords)
    (loadArena (m := StateM Store) "/org.json").run.run s =
      (.error (.domain (.unknownParent "a" "null")), s) :=
  loadArena_listToJson Builder.new strayRecords rfl

end Organization

end Downline
