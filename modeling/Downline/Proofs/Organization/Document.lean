import Downline.Organization.Document
import Downline.Proofs.Json.Writing
import Downline.Proofs.Organization.Tree

/-!
# Organizations as documents

An organization is written as an object and read back from it. The codec has two halves that do not
know of each other: the writer leaves the children of a leaf out, the reader takes their absence for
a leaf; the writer spells a standing by its name, the reader looks the name up. They agree on every
organization (`ofJson?_toJson`), since they agree on the object of a member (`slots?_fields`) and
on the children of a node.
-/

namespace Downline

open Json

namespace Member

/-- The entries of a member as the reader gets to see them. -/
def fields (m : Member) : List (Option String × Document) := [
  (some "id", .text (some m.id)),
  (some "name", .text (some m.name)),
  (some "rank", .text (some m.rank)),
  (some "pvLeft", .number (.ofNat m.pvLeft.toNat)),
  (some "pvRight", .number (.ofNat m.pvRight.toNat)),
  (some "status", .text (some m.status.name))]

theorem written_fields (m : Member) : List.Forall₂ Written.Entry m.toEntries m.fields :=
  .cons ⟨rfl, .text _⟩ <| .cons ⟨rfl, .text _⟩ <| .cons ⟨rfl, .text _⟩ <|
    .cons ⟨rfl, .ofUInt64 _⟩ <| .cons ⟨rfl, .ofUInt64 _⟩ <| .cons ⟨rfl, .text _⟩ .nil

theorem uint64?_ofNat (n : UInt64) : Document.uint64? (.number (.ofNat n.toNat)) = some n := by
  have hlt : n.toNat < UInt64.size := n.toNat_lt
  simp [Document.uint64?, Numeral.uint64?, Numeral.ofNat, Decimal.Digits.toNat_ofNat, hlt]

/-- The slots that the entries of a member fill, with whatever fills the slot behind them. -/
theorem ofSlots?_fields (m : Member) (children : Option Document) :
    ofSlots? (m.fields.map (some ·.2) ++ [children]) = some m := by
  simp [ofSlots?, fields, Document.slot, Document.required?, Document.text?, uint64?_ofNat,
    Document.oneOf?, Document.variant?, Status.ofName?_name]

end Member

namespace Organization

/-- The entries of a node, with those of its member in front, fill the slots of a node. -/
theorem slots?_fields (m : Member) (children : Option Document) :
    Document.slots? fieldNames
        (.object (m.fields ++ (children.map (some childrenField, ·)).toList)) =
      some (m.fields.map (some ·.2) ++ [children]) := by
  cases children <;> rfl

/-- The children of a node are what stands behind the entries of its member. -/
theorem childrenOfEntries?_fields (m : Member) (es : List (Option String × Document)) :
    childrenOfEntries? (m.fields ++ es) = childrenOfEntries? es := by
  simp [Member.fields, childrenOfEntries?, childrenField]

/-- An organization is written as the entries of an object that describes it. -/
theorem exists_document (o : Organization) :
    ∃ es fs, o.toValue = .object es ∧ List.Forall₂ Written.Entry es fs ∧
      ofDocument? (.object fs) = some o := by
  induction o using Organization.ind with
  | node m cs ih =>
    cases cs with
    | nil =>
      refine ⟨m.toEntries, m.fields, by rw [toValue], m.written_fields, ?_⟩
      have hslots := slots?_fields m none
      rw [Option.map_none, Option.toList_none, List.append_nil] at hslots
      have hchildren := childrenOfEntries?_fields m []
      rw [List.append_nil, childrenOfEntries?] at hchildren
      rw [ofDocument?, hslots]
      simp only [Member.ofSlots?_fields, hchildren]
    | cons c cs =>
      -- the children are written as a list of documents that describes them
      have items : ∀ os, (∀ o ∈ os, o ∈ c :: cs) →
          ∃ ds, List.Forall₂ Written (toValues os) ds ∧ ofDocuments? ds = some os := by
        intro os hos
        induction os with
        | nil => exact ⟨[], by rw [toValues]; exact .nil, by rw [ofDocuments?]⟩
        | cons o os ihos =>
          obtain ⟨ho, hos⟩ := List.forall_mem_cons.mp hos
          obtain ⟨es, fs, hvalue, hwritten, hread⟩ := ih o ho
          obtain ⟨ds, hds, hall⟩ := ihos hos
          refine ⟨.object fs :: ds, ?_, ?_⟩
          · rw [toValues, hvalue]
            exact .cons (.object hwritten) hds
          · rw [ofDocuments?, hread, hall]
      obtain ⟨ds, hds, hall⟩ := items (c :: cs) fun _ h => h
      refine ⟨_, m.fields ++ [(some childrenField, .list ds)], by rw [toValue],
        List.rel_append m.written_fields (.cons ⟨rfl, .list hds⟩ .nil), ?_⟩
      have hslots := slots?_fields m (some (.list ds))
      rw [Option.map_some, Option.toList_some] at hslots
      have hchildren := childrenOfEntries?_fields m [(some childrenField, .list ds)]
      rw [childrenOfEntries?, if_pos rfl, children?, hall] at hchildren
      rw [ofDocument?, hslots]
      simp only [Member.ofSlots?_fields, hchildren]

/-- The text of an organization stands between braces. -/
theorem exists_toJson_eq (o : Organization) :
    ∃ q, o.toJson = String.ofList ('\x7b' :: (q ++ ['\x7d'])) := by
  obtain ⟨es, fs, hvalue, hwritten, -⟩ := o.exists_document
  obtain ⟨q, hq, -⟩ := Written.exists_braced hwritten
  exact ⟨q, by rw [toJson, hvalue, Value.compact, hq, List.append_nil]⟩

/-- **An organization is read back from its text.** -/
theorem ofJson?_toJson (o : Organization) : ofJson? o.toJson = some o := by
  obtain ⟨es, fs, hvalue, hwritten, hread⟩ := o.exists_document
  rw [ofJson?, toJson, hvalue, ofString?_compact (.object hwritten), Option.bind_some, hread]

end Organization

end Downline
