import Downline.Proofs.Organization.Standing
import Mathlib.Algebra.BigOperators.Ring.List
import Mathlib.Algebra.Ring.Nat
import Mathlib.Data.List.Perm.Basic

/-!
# What a summary keeps

The rows of an organization hold its members once each, in another order than a walk from the top
down (`flatten_generations_perm`). So whatever is added up row by row comes to the same total as
along the tree, and a summary of the rows keeps the number of members and both point volumes
(`summary_conserves`).

The totals of a summary are natural numbers. Where volumes are added up in words of 64 bits instead,
the sum exists exactly if it fits, and then it is the same (`sumOfWords?_eq_some_iff`).
-/

namespace Downline

/-! ## Sums of words -/

/-- The sum of two words, if it fits a word. -/
def addWord? (sum w : UInt64) : Option UInt64 :=
  if sum.toNat + w.toNat < UInt64.size then some (sum + w) else none

/-- The sum of words that are added up one by one; `none` as soon as a sum does not fit. -/
def sumOfWords? (words : List UInt64) : Option UInt64 := words.foldlM addWord? 0

theorem foldlM_addWord?_eq_some_iff {words : List UInt64} {start total : UInt64} :
    words.foldlM addWord? start = some total ↔
      total.toNat = start.toNat + (words.map UInt64.toNat).sum := by
  induction words generalizing start with
  | nil =>
    rw [List.foldlM_nil, List.map_nil, List.sum_nil, Nat.add_zero, Option.pure_def,
      Option.some_inj, UInt64.toNat_inj, eq_comm]
  | cons w words ih =>
    rw [List.foldlM_cons, List.map_cons, List.sum_cons, ← Nat.add_assoc, addWord?]
    by_cases hfits : start.toNat + w.toNat < UInt64.size
    · have hsum : (start + w).toNat = start.toNat + w.toNat := by
        rw [UInt64.toNat_add, Nat.mod_eq_of_lt hfits]
      rw [if_pos hfits, Option.bind_eq_bind, Option.bind_some, ih, hsum]
    · have hword := total.toNat_lt_size
      rw [if_neg hfits, Option.bind_eq_bind, Option.bind_none]
      constructor
      · intro h
        cases h
      · intro h
        omega

/-- **Words have a sum exactly if it fits a word.** -/
theorem sumOfWords?_eq_some_iff {words : List UInt64} {total : UInt64} :
    sumOfWords? words = some total ↔ total.toNat = (words.map UInt64.toNat).sum := by
  rw [sumOfWords?, foldlM_addWord?_eq_some_iff, UInt64.toNat_zero, Nat.zero_add]

theorem exists_sumOfWords? {words : List UInt64}
    (hfits : (words.map UInt64.toNat).sum < UInt64.size) :
    ∃ total, sumOfWords? words = some total ∧ total.toNat = (words.map UInt64.toNat).sum := by
  have htotal : (UInt64.ofNatLT _ hfits).toNat = (words.map UInt64.toNat).sum :=
    UInt64.toNat_ofNatLT ..
  exact ⟨_, sumOfWords?_eq_some_iff.mpr htotal, htotal⟩

namespace Levels

theorem rowTotal_eq (measure : LevelEntry → Nat) (row : List LevelEntry) :
    rowTotal measure row = (row.map measure).sum := by
  rw [rowTotal, List.sum_eq_foldr, List.foldr_map]

/-- The entry of a summary for a row. -/
def totals (depth : Nat) (row : List LevelEntry) : Summary :=
  ⟨depth, row.length, rowTotal (·.member.pvLeft.toNat) row, rowTotal (·.member.pvRight.toNat) row⟩

theorem getElem?_summary (l : Levels) (d : Nat) : l.summary[d]? = (l.row? d).map (totals d) := by
  rw [summary, List.getElem?_map, List.getElem?_zipIdx, Option.map_map, Nat.zero_add, row?]
  rfl

/-- What does not depend on the depth may be read off the rows. -/
theorem map_summary {α : Type} (l : Levels) (f : Summary → α) (g : List LevelEntry → α)
    (h : ∀ d row, f (totals d row) = g row) : l.summary.map f = l.rows.map g := by
  refine List.ext_getElem? fun d => ?_
  rw [List.getElem?_map, List.getElem?_map, getElem?_summary, Option.map_map]
  exact congrArg (fun k => Option.map k (l.row? d)) (funext (h d))

theorem sum_width_summary (l : Levels) : (l.summary.map (·.width)).sum = l.nodeCount := by
  rw [l.map_summary (·.width) List.length fun _ _ => rfl, nodeCount, List.sum_eq_foldr,
    List.foldr_map]

end Levels

namespace Organization

/-! ## Totals along a tree -/

mutual

/-- The total of a measure over all members. -/
def total (measure : Member → Nat) : Organization → Nat
  | node m cs => measure m + totalAll measure cs

def totalAll (measure : Member → Nat) : List Organization → Nat
  | [] => 0
  | o :: os => o.total measure + totalAll measure os

end

theorem total_node (measure : Member → Nat) (m : Member) (cs : List Organization) :
    (node m cs).total measure = measure m + (cs.map (total measure)).sum := by
  have hall : totalAll measure cs = (cs.map (total measure)).sum := by
    induction cs with
    | nil => rw [totalAll, List.map_nil, List.sum_nil]
    | cons c cs ih => rw [totalAll, ih, List.map_cons, List.sum_cons]
  rw [total, hall]

theorem total_eq_sum (measure : Member → Nat) (o : Organization) :
    o.total measure = (o.subtrees.map fun s => measure s.member).sum := by
  induction o using ind with
  | node m cs ih =>
    rw [total_node, subtrees_node, List.map_cons, List.sum_cons, member_node, List.map_flatMap,
      List.flatMap_def, List.sum_flatten, List.map_map, List.map_congr_left ih]
    rfl

/-! ## Rows and trees -/

/-- The rows from a list of siblings and cousins on down hold the organizations of all members below
and including them. -/
theorem flatten_generationsOf_perm (os : List Organization) :
    (generationsOf os).flatten.Perm (os.flatMap subtrees) := by
  induction os using generationsOf.induct with
  | case1 => rw [generationsOf, List.flatten_nil, List.flatMap_nil]
  | case2 o os ih =>
    have hsubtrees : subtrees = fun p : Organization => id p :: p.children.flatMap subtrees := by
      funext p
      cases p with
      | node m cs => exact subtrees_node m cs
    have hrow := List.map_append_flatMap_perm (o :: os) id fun p => p.children.flatMap subtrees
    rw [List.map_id, ← List.flatMap_assoc, ← hsubtrees] at hrow
    rw [generationsOf, List.flatten_cons]
    exact (ih.append_left (o :: os)).trans hrow

/-- **The rows of an organization hold its members once each.** -/
theorem flatten_generations_perm (o : Organization) : o.generations.flatten.Perm o.subtrees := by
  have h := flatten_generationsOf_perm [o]
  rwa [List.flatMap_singleton] at h

/-- What is added up row by row comes to the same total as along the tree. -/
theorem sum_map_rowTotal (measure : Member → Nat) (o : Organization) :
    (o.levels.rows.map (Levels.rowTotal (measure ·.member))).sum = o.total measure := by
  have hrows : o.levels.rows.map (Levels.rowTotal (measure ·.member)) =
      o.generations.map fun row => (row.map fun s => measure s.member).sum := by
    refine List.ext_getElem? fun d => ?_
    rw [rows_levels, List.getElem?_map, List.getElem?_map, List.getElem?_mapIdx, Option.map_map]
    refine congrArg (fun k => Option.map k _) (funext fun row => ?_)
    rw [Function.comp_apply, Levels.rowTotal_eq, List.map_map]
    rfl
  have hperm := o.flatten_generations_perm.map fun s => measure s.member
  rw [hrows, total_eq_sum, ← hperm.sum_nat, List.map_flatten, List.sum_flatten, List.map_map]
  rfl

/-- A row is as wide as the row above has children. -/
theorem width_below (o : Organization) {d : Nat} {row : List LevelEntry}
    (hrow : o.levels.row? d = some row) :
    ((o.levels.row? (d + 1)).getD []).length = (row.map (·.childCount)).sum := by
  have habove := o.row_levels_eq_map d
  rw [hrow, Option.getD_some] at habove
  rw [habove, row_levels_eq_map, List.length_map, generations, getD_generationsOf_succ,
    List.length_flatMap, List.map_map]
  rfl

/-! ## Summaries -/

/-- What a summary keeps of an organization. -/
structure Conserves (o : Organization) (s : List Levels.Summary) : Prop where
  /-- There is one entry for each row. -/
  length : s.length = o.levels.length
  /-- An entry has the depth and the width of its row, and the sums of its volumes, which are those
  that words of 64 bits add up to. -/
  entry : ∀ {d row}, o.levels.row? d = some row →
    ∃ e left right, s[d]? = some e ∧ e.depth = d ∧ e.width = row.length ∧
      sumOfWords? (row.map (·.member.pvLeft)) = some left ∧ e.pvLeft = left.toNat ∧
      sumOfWords? (row.map (·.member.pvRight)) = some right ∧ e.pvRight = right.toNat
  width : (s.map (·.width)).sum = o.nodeCount
  pvLeft : (s.map (·.pvLeft)).sum = o.total (·.pvLeft.toNat)
  pvRight : (s.map (·.pvRight)).sum = o.total (·.pvRight.toNat)
  /-- The row below is as wide as a row has children; below the last one there is none. -/
  below : ∀ {d row}, o.levels.row? d = some row →
    ((s[d + 1]?).map (·.width)).getD 0 = (row.map (·.childCount)).sum

/-- **A summary conserves everything**, if the volumes of each row fit words of 64 bits. -/
theorem summary_conserves (o : Organization)
    (hleft : ∀ row ∈ o.levels.rows, Levels.rowTotal (·.member.pvLeft.toNat) row < UInt64.size)
    (hright : ∀ row ∈ o.levels.rows, Levels.rowTotal (·.member.pvRight.toNat) row < UInt64.size) :
    o.Conserves o.levels.summary where
  length := by rw [Levels.summary, List.length_map, List.length_zipIdx, Levels.length]
  entry := by
    intro d row hrow
    have hmem : row ∈ o.levels.rows := List.mem_of_getElem? hrow
    have htotal (volume : Member → UInt64) :
        Levels.rowTotal (fun e => (volume e.member).toNat) row =
          ((row.map fun e => volume e.member).map UInt64.toNat).sum := by
      rw [Levels.rowTotal_eq, List.map_map]
      rfl
    obtain ⟨left, hsumLeft, hwordLeft⟩ := exists_sumOfWords? (htotal (·.pvLeft) ▸ hleft row hmem)
    obtain ⟨right, hsumRight, hwordRight⟩ :=
      exists_sumOfWords? (htotal (·.pvRight) ▸ hright row hmem)
    refine ⟨Levels.totals d row, left, right, ?_, rfl, rfl, hsumLeft, ?_, hsumRight, ?_⟩
    · rw [Levels.getElem?_summary, hrow, Option.map_some]
    · exact (htotal (·.pvLeft)).trans hwordLeft.symm
    · exact (htotal (·.pvRight)).trans hwordRight.symm
  width := by rw [Levels.sum_width_summary, nodeCount_levels, nodeCount_eq]
  pvLeft := by
    rw [Levels.map_summary _ (·.pvLeft) _ fun _ _ => rfl]
    exact o.sum_map_rowTotal (·.pvLeft.toNat)
  pvRight := by
    rw [Levels.map_summary _ (·.pvRight) _ fun _ _ => rfl]
    exact o.sum_map_rowTotal (·.pvRight.toNat)
  below := by
    intro d row hrow
    rw [← o.width_below hrow, Levels.getElem?_summary, Option.map_map]
    cases o.levels.row? (d + 1) <;> rfl

/-- A member with two below, whose volumes fit words row by row but not all together. -/
def heavy : Organization :=
  let lone (id : String) (pvLeft pvRight : UInt64) : Member :=
    ⟨id, "", "", pvLeft, pvRight, .active⟩
  .node (lone "a" 0x8000000000000000 1)
    [.node (lone "b" 0x8000000000000000 2) [], .node (lone "c" 0 3) []]

theorem summary_conserves_heavy :
    heavy.Conserves heavy.levels.summary ∧
      heavy.levels.summary = [⟨0, 1, 2 ^ 63, 1⟩, ⟨1, 2, 2 ^ 63, 5⟩] ∧
      heavy.total (·.pvLeft.toNat) = UInt64.size := by
  have hleft : ∀ row ∈ heavy.levels.rows,
      Levels.rowTotal (·.member.pvLeft.toNat) row < UInt64.size := by decide +kernel
  have hright : ∀ row ∈ heavy.levels.rows,
      Levels.rowTotal (·.member.pvRight.toNat) row < UInt64.size := by decide +kernel
  exact ⟨heavy.summary_conserves hleft hright, by decide +kernel, by decide +kernel⟩

end Organization

end Downline
