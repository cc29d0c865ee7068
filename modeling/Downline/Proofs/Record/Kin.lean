import Downline.Record.Build
import Downline.Proofs.Walk
import Mathlib.Data.List.Basic

/-!
# Records that hang below a record

The records that name a record as their parent, by place and as they are laid out, make a forest
if ids are distinct (`kin_forest`). Growing an arena walks this forest from the one record without
a parent (`Top`).
-/

namespace Downline.Record

/-- The places of the records below the record at a place, as they are laid out. -/
def kin (rs : List Record) (i : Nat) : List Nat :=
  match rs[i]? with
  | none => []
  | some r => laidOut rs (rs.findIdxs fun q => q.parentId = some r.id)

theorem kin_eq {rs : List Record} {i : Nat} {r : Record} (hr : rs[i]? = some r) :
    kin rs i = laidOut rs (rs.findIdxs fun q => q.parentId = some r.id) := by
  simp only [kin, hr]

theorem laidOut_perm (rs : List Record) (family : List Nat) : (laidOut rs family).Perm family :=
  List.perm_append_comm.trans (List.filter_append_perm (onRight rs) family)

/-- A record is below the one that it names as its parent. -/
theorem mem_kin_iff {rs : List Record} {i j : Nat} :
    j ∈ kin rs i ↔
      ∃ r q, rs[i]? = some r ∧ rs[j]? = some q ∧ q.parentId = some r.id := by
  cases hr : rs[i]? with
  | none => simp [kin, hr]
  | some r =>
    rw [kin_eq hr, (laidOut_perm rs _).mem_iff, List.mem_findIdxs_iff_exists_getElem_pos]
    constructor
    · rintro ⟨hj, hq⟩
      exact ⟨r, rs[j], rfl, List.getElem?_eq_getElem hj, of_decide_eq_true hq⟩
    · rintro ⟨r', q, hr', hq, hparent⟩
      obtain rfl := Option.some.inj hr'
      obtain ⟨hj, rfl⟩ := List.getElem?_eq_some_iff.mp hq
      exact ⟨hj, decide_eq_true hparent⟩

theorem kin_lt {rs : List Record} {i j : Nat} (hj : j ∈ kin rs i) : j < rs.length := by
  obtain ⟨_, q, -, hq, -⟩ := mem_kin_iff.mp hj
  exact (List.getElem?_eq_some_iff.mp hq).1

theorem place_unique {rs : List Record} (hdistinct : (rs.map id).Nodup) {i j : Nat} {r q : Record}
    (hr : rs[i]? = some r) (hq : rs[j]? = some q) (hid : r.id = q.id) : i = j := by
  have hi : (rs.map id)[i]? = some r.id := by rw [List.getElem?_map, hr, Option.map_some]
  have hj : (rs.map id)[j]? = some r.id := by rw [List.getElem?_map, hq, Option.map_some, hid]
  have hlt : i < (rs.map id).length := (List.getElem?_eq_some_iff.mp hi).1
  exact (List.getElem?_inj hlt hdistinct).mp (hi.trans hj.symm)

/-- With distinct ids, a record is below one record at most. -/
theorem kin_forest {rs : List Record} (hdistinct : (rs.map id).Nodup) : Walk.Forest (kin rs) where
  nodup := by
    intro i
    cases hr : rs[i]? with
    | none => simp only [kin, hr, List.nodup_nil]
    | some r =>
      rw [kin_eq hr]
      exact (laidOut_perm rs _).nodup_iff.mpr List.nodup_findIdxs
  unique := by
    intro i j k hi hj
    obtain ⟨r, q, hr, hq, hparent⟩ := mem_kin_iff.mp hi
    obtain ⟨r', q', hr', hq', hparent'⟩ := mem_kin_iff.mp hj
    obtain rfl : q = q' := Option.some.inj (hq.symm.trans hq')
    exact place_unique hdistinct hr hr' (Option.some.inj (hparent.symm.trans hparent'))

/-! ## The top -/

/-- The record at a place is the only one without a parent. -/
structure Top (rs : List Record) (i : Nat) : Prop where
  parentless : ∃ r, rs[i]? = some r ∧ r.parentId = none
  unique : ∀ {j q}, rs[j]? = some q → q.parentId = none → j = i

theorem Top.lt_length {rs : List Record} {i : Nat} (h : Top rs i) : i < rs.length := by
  obtain ⟨r, hr, -⟩ := h.parentless
  exact (List.getElem?_eq_some_iff.mp hr).1

theorem Top.eq_of_parentless {rs : List Record} {i : Nat} {top : Record} (h : Top rs i)
    (hi : rs[i]? = some top) : ∀ r ∈ rs, r.parentId = none → r = top := by
  intro r hr hnone
  obtain ⟨j, hj⟩ := List.mem_iff_getElem?.mp hr
  obtain rfl := h.unique hj hnone
  exact Option.some.inj (hj.symm.trans hi)

end Downline.Record
