import Downline.Proofs.Organization.Rows

/-!
# Where members stand

`entriesFrom` goes through an organization from the top down and notes of each member where it
stands: its depth and the number of its children. Rows can be read off that list. Those with one
depth, in the order of the list, are the row at that depth (`row_levels`), although a row is in
breadth-first order and the list is not. So there are as many rows as the organization is high,
and they hold all of its members (`length_levels`, `nodeCount_levels`).
-/

namespace Downline.Organization

mutual

/-- The members from the top down, as they stand if the top is at the given depth. -/
def entriesFrom (depth : Nat) : Organization → List LevelEntry
  | node m cs => ⟨m, depth, cs.length⟩ :: entriesFromAll (depth + 1) cs

def entriesFromAll (depth : Nat) : List Organization → List LevelEntry
  | [] => []
  | o :: os => o.entriesFrom depth ++ entriesFromAll depth os

end

theorem entriesFrom_eq (depth : Nat) (o : Organization) :
    o.entriesFrom depth =
      .ofNode o depth :: o.children.flatMap (entriesFrom (depth + 1)) := by
  have hall : ∀ os, entriesFromAll (depth + 1) os = os.flatMap (entriesFrom (depth + 1)) := by
    intro os
    induction os with
    | nil => rw [entriesFromAll, List.flatMap_nil]
    | cons o os ih => rw [entriesFromAll, ih, List.flatMap_cons]
  cases o
  rw [entriesFrom, hall]
  rfl

theorem map_member_entriesFrom (o : Organization) (depth : Nat) :
    (o.entriesFrom depth).map (·.member) = o.preorder := by
  induction o using ind generalizing depth with
  | node m cs ih =>
    rw [entriesFrom_eq, List.map_cons, preorder_node, children_node, List.map_flatMap]
    exact congrArg _ (List.flatMap_congr fun c hc => ih c hc (depth + 1))

theorem length_entriesFrom (o : Organization) (depth : Nat) :
    (o.entriesFrom depth).length = o.size := by
  rw [← length_preorder, ← o.map_member_entriesFrom depth, List.length_map]

/-- The members and the numbers of their children, whatever the depth of the top. -/
theorem map_entriesFrom_eq_map_subtrees (o : Organization) (depth : Nat) :
    (o.entriesFrom depth).map (fun e => (e.member, e.childCount)) =
      o.subtrees.map fun s => (s.member, s.children.length) := by
  induction o using ind generalizing depth with
  | node m cs ih =>
    rw [entriesFrom_eq, subtrees_node, List.map_cons, List.map_cons, List.map_flatMap,
      List.map_flatMap, children_node]
    exact congrArg _ (List.flatMap_congr fun c hc => ih c hc (depth + 1))

/-- Nobody stands above the top. -/
theorem le_depth_of_mem_entriesFrom {o : Organization} {depth : Nat} {e : LevelEntry}
    (he : e ∈ o.entriesFrom depth) : depth ≤ e.depth := by
  induction o using ind generalizing depth with
  | node m cs ih =>
    rw [entriesFrom_eq, children_node, List.mem_cons, List.mem_flatMap] at he
    rcases he with rfl | ⟨c, hc, he⟩
    · exact Nat.le_refl _
    · exact Nat.le_of_succ_le (ih c hc he)

/-! ## Rows -/

/-- Those who stand in the row of the top are the top. -/
theorem filter_entriesFrom_self (o : Organization) (depth : Nat) :
    (o.entriesFrom depth).filter (·.depth = depth) = [.ofNode o depth] := by
  have hbelow : (o.children.flatMap (entriesFrom (depth + 1))).filter
      (·.depth = depth) = [] := by
    refine List.filter_eq_nil_iff.mpr fun e he => ?_
    obtain ⟨c, -, he⟩ := List.mem_flatMap.mp he
    have := le_depth_of_mem_entriesFrom he
    rw [decide_eq_true_eq]
    omega
  rw [entriesFrom_eq, List.filter_cons_of_pos (by simp), hbelow]

/-- Those who stand further down are below the top. -/
theorem filter_entriesFrom_of_lt (o : Organization) {depth k : Nat} (h : depth < k) :
    (o.entriesFrom depth).filter (·.depth = k) =
      o.children.flatMap fun c => (c.entriesFrom (depth + 1)).filter (·.depth = k) := by
  have htop : ¬ ((LevelEntry.ofNode o depth).depth = k) := Nat.ne_of_lt h
  rw [entriesFrom_eq, List.filter_cons_of_neg (by rwa [decide_eq_true_eq]), List.filter_flatMap]

/-- The rows from a list of siblings and cousins on down are what stands there, depth by depth. -/
theorem row_generationsOf (os : List Organization) (depth k : Nat) :
    (((generationsOf os)[k]?).getD []).map (.ofNode · (depth + k)) =
      os.flatMap fun o => (o.entriesFrom depth).filter (·.depth = depth + k) := by
  induction k generalizing os depth with
  | zero =>
    simp only [Nat.add_zero, filter_entriesFrom_self, getD_generationsOf_zero]
    exact List.map_eq_flatMap
  | succ k ih =>
    have hbelow := ih (os.flatMap children) (depth + 1)
    rw [Nat.add_right_comm, Nat.add_assoc, List.flatMap_assoc] at hbelow
    rw [getElem?_generationsOf_succ, hbelow]
    exact List.flatMap_congr fun o _ => (filter_entriesFrom_of_lt o (by omega)).symm

theorem rows_levels (o : Organization) :
    o.levels.rows = o.generations.mapIdx fun d row => row.map (.ofNode · d) := by
  rw [levels, sweep?_top, Option.getD_some]

/-- A row is a generation, each member as it stands there. -/
theorem row_levels_eq_map (o : Organization) (k : Nat) :
    (o.levels.row? k).getD [] = ((o.generations[k]?).getD []).map (.ofNode · k) := by
  rw [Levels.row?, rows_levels, List.getElem?_mapIdx]
  cases o.generations[k]? <;> rfl

/-- **A row holds those who stand at its depth**, in the order from the top down. -/
theorem row_levels (o : Organization) (k : Nat) :
    (o.levels.row? k).getD [] = (o.entriesFrom 0).filter (·.depth = k) := by
  have hrow := row_generationsOf [o] 0 k
  rw [Nat.zero_add, List.flatMap_singleton] at hrow
  rw [← hrow, row_levels_eq_map, generations]

/-! ## Numbers of rows and of members -/

theorem length_levels (o : Organization) : o.levels.length = o.height := by
  rw [Levels.length, rows_levels, List.length_mapIdx, (rows_generations o).length]

/-- There are as many rows as the deepest member needs. -/
theorem depth_lt_height {o : Organization} {e : LevelEntry} (he : e ∈ o.entriesFrom 0) :
    e.depth < o.height := by
  have hmem : e ∈ (o.entriesFrom 0).filter (·.depth = e.depth) :=
    List.mem_filter.mpr ⟨he, by simp⟩
  rw [← row_levels] at hmem
  by_contra hle
  rw [Levels.row?, List.getElem?_eq_none (by rw [← length_levels] at hle; exact Nat.not_lt.mp hle)]
    at hmem
  cases hmem

theorem exists_depth (o : Organization) : ∃ e ∈ o.entriesFrom 0, e.depth + 1 = o.height := by
  obtain ⟨k, hk⟩ : ∃ k, o.height = k + 1 := ⟨_, height_eq o⟩
  have hlt : k < o.generations.length := by rw [(rows_generations o).length, hk]; omega
  have hrow : (o.levels.row? k).getD [] ≠ [] := by
    have hne := (rows_generations o).nonempty _ (List.getElem_mem hlt)
    rw [Levels.row?, rows_levels, List.getElem?_mapIdx, List.getElem?_eq_getElem hlt]
    simpa using hne
  rw [row_levels] at hrow
  obtain ⟨e, he⟩ := List.exists_mem_of_ne_nil _ hrow
  obtain ⟨he, hdepth⟩ := List.mem_filter.mp he
  exact ⟨e, he, by rw [hk, of_decide_eq_true hdepth]⟩

theorem sizeAll_eq (os : List Organization) :
    sizeAll os = os.length + sizeAll (os.flatMap children) := by
  induction os with
  | nil => rfl
  | cons o os ih =>
    obtain ⟨m, cs⟩ := o
    rw [sizeAll_cons, size_node, ih, List.flatMap_cons, children_node, sizeAll_append,
      List.length_cons]
    omega

/-- The widths of the rows add up to the number of members. -/
theorem total_width_generationsOf (os : List Organization) :
    ((generationsOf os).map List.length).foldr (· + ·) 0 = sizeAll os := by
  induction os using generationsOf.induct with
  | case1 => rw [generationsOf, List.map_nil, List.foldr_nil, sizeAll_nil]
  | case2 o os ih => rw [generationsOf, List.map_cons, List.foldr_cons, ih, ← sizeAll_eq]

theorem nodeCount_levels (o : Organization) : o.levels.nodeCount = o.size := by
  have htotal : o.levels.nodeCount = (o.levels.rows.map List.length).foldr (· + ·) 0 := by
    rw [Levels.nodeCount, List.foldr_map]
  have hwidths : o.levels.rows.map List.length = o.generations.map List.length := by
    rw [rows_levels]
    refine List.ext_getElem? fun k => ?_
    simp only [List.getElem?_map, List.getElem?_mapIdx, Option.map_map]
    exact congrFun (congrArg _ (funext fun row => List.length_map _)) _
  rw [htotal, hwidths, generations, total_width_generationsOf, sizeAll_cons, sizeAll_nil,
    Nat.add_zero]

end Downline.Organization
