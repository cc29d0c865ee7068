import Downline.Organization.Levels
import Downline.Proofs.Organization.Tree

/-!
# The sweep gives the generations

The queue of the sweep never spans more than two rows: what is left of the row being added, and
behind it what the members added so far have below them. So a member goes to the last row or begins
the one after it, and `Levels.add?` always has an answer. Over one row the sweep adds that row and
queues the next (`sweep?_row`); the rows it ends with are the generations, from the top down
(`sweep?_generationsOf`).
-/

namespace Downline

namespace Levels

theorem modify_last (rows : List (List LevelEntry)) (row : List LevelEntry)
    (f : List LevelEntry → List LevelEntry) :
    (rows ++ [row]).modify rows.length f = rows ++ [f row] := by
  induction rows with
  | nil => rfl
  | cons r rows ih => simp [ih]

theorem add?_last {rows : List (List LevelEntry)} (row : List LevelEntry) {e : LevelEntry}
    (h : e.depth = rows.length) :
    (Levels.mk (rows ++ [row])).add? e = some ⟨rows ++ [row ++ [e]]⟩ := by
  simp [add?, h, modify_last]

theorem add?_next {rows : List (List LevelEntry)} {e : LevelEntry} (h : e.depth = rows.length) :
    (Levels.mk rows).add? e = some ⟨rows ++ [[e]]⟩ := by
  simp [add?, h, modify_last]

end Levels

namespace Organization

@[simp] theorem depth_ofNode (o : Organization) (d : Nat) : (LevelEntry.ofNode o d).depth = d := rfl

/-- A step of the sweep. -/
theorem sweep?_cons {o : Organization} {d : Nat} {queue : List (Organization × Nat)}
    {rows rows' : Levels} (h : rows.add? (.ofNode o d) = some rows') :
    sweep? ((o, d) :: queue) rows = sweep? (queue ++ o.children.map (·, d + 1)) rows' := by
  cases o
  rw [sweep?]
  simp only [h, children_node]

/-- The rest of a row: it is added to the row that has been begun, and what hangs below it is
queued behind what is queued already. -/
theorem sweep?_rest (rest next : List Organization) (rows : List (List LevelEntry))
    (row : List LevelEntry) :
    sweep? (rest.map (·, rows.length) ++ next.map (·, rows.length + 1)) ⟨rows ++ [row]⟩ =
      sweep? ((next ++ rest.flatMap children).map (·, rows.length + 1))
        ⟨rows ++ [row ++ rest.map (.ofNode · rows.length)]⟩ := by
  induction rest generalizing next row with
  | nil => simp
  | cons o rest ih =>
    have hadd := Levels.add?_last row (depth_ofNode o rows.length)
    rw [List.map_cons, List.cons_append, sweep?_cons hadd, List.append_assoc, ← List.map_append,
      ih, List.append_assoc, List.append_assoc]
    simp

/-- **Over one row the sweep adds that row and queues the next one.** -/
theorem sweep?_row (o : Organization) (os : List Organization) (rows : List (List LevelEntry)) :
    sweep? ((o :: os).map (·, rows.length)) ⟨rows⟩ =
      sweep? (((o :: os).flatMap children).map (·, rows.length + 1))
        ⟨rows ++ [(o :: os).map (.ofNode · rows.length)]⟩ := by
  have hadd := Levels.add?_next (depth_ofNode o rows.length)
  rw [List.map_cons, sweep?_cons hadd, sweep?_rest]
  simp

/-- The sweep has an answer, whatever row it begins with: the rows from there on down. -/
theorem sweep?_generationsOf (os : List Organization) (rows : List (List LevelEntry)) :
    sweep? (os.map (·, rows.length)) ⟨rows⟩ =
      some ⟨rows ++ (generationsOf os).mapIdx fun k row =>
        row.map (.ofNode · (rows.length + k))⟩ := by
  induction os using generationsOf.induct generalizing rows with
  | case1 => simp [sweep?, generationsOf]
  | case2 o os ih =>
    have hnext := ih (rows ++ [(o :: os).map (.ofNode · rows.length)])
    rw [List.length_append, List.length_singleton] at hnext
    rw [sweep?_row, hnext, generationsOf, List.mapIdx_cons, List.append_assoc]
    simp [Nat.add_assoc, Nat.add_comm 1]

/-! ## Generations -/

theorem length_generationsOf (os : List Organization) :
    (generationsOf os).length = heightAll os := by
  induction os using generationsOf.induct with
  | case1 => rw [generationsOf, List.length_nil, heightAll]
  | case2 o os ih => rw [generationsOf, List.length_cons, ih, heightAll_cons]

theorem ne_nil_of_mem_generationsOf {os row : List Organization} (h : row ∈ generationsOf os) :
    row ≠ [] := by
  induction os using generationsOf.induct with
  | case1 => simp [generationsOf] at h
  | case2 o os ih =>
    rw [generationsOf, List.mem_cons] at h
    rcases h with rfl | h
    · exact List.cons_ne_nil o os
    · exact ih h

theorem getElem?_generationsOf_succ (os : List Organization) (k : Nat) :
    (generationsOf os)[k + 1]? = (generationsOf (os.flatMap children))[k]? := by
  cases os with
  | nil => simp [generationsOf]
  | cons o os => rw [generationsOf, List.getElem?_cons_succ]

theorem getD_generationsOf_zero (os : List Organization) :
    ((generationsOf os)[0]?).getD [] = os := by
  cases os with
  | nil => simp [generationsOf]
  | cons o os => rw [generationsOf, List.getElem?_cons_zero, Option.getD_some]

/-- A generation is the children of the one before, family after family. -/
theorem getD_generationsOf_succ (os : List Organization) (k : Nat) :
    ((generationsOf os)[k + 1]?).getD [] =
      (((generationsOf os)[k]?).getD []).flatMap children := by
  induction k generalizing os with
  | zero => rw [getElem?_generationsOf_succ, getD_generationsOf_zero, getD_generationsOf_zero]
  | succ k ih => rw [getElem?_generationsOf_succ, ih, ← getElem?_generationsOf_succ]

/-- What the rows of an organization are: the top alone, and in each further row the children of
the members of the row above, family after family; as many rows as the tree is high, none of them
empty. -/
structure Rows (o : Organization) (rows : List (List Organization)) : Prop where
  top : rows[0]? = some [o]
  next : ∀ {d row below}, rows[d]? = some row → rows[d + 1]? = some below →
    below = row.flatMap children
  length : rows.length = o.height
  nonempty : ∀ row ∈ rows, row ≠ []

theorem rows_generations (o : Organization) : Rows o o.generations where
  top := by rw [generations, generationsOf, List.getElem?_cons_zero]
  next := by
    intro d row below hrow hbelow
    have hnext := getD_generationsOf_succ [o] d
    rwa [← generations, hrow, hbelow, Option.getD_some, Option.getD_some] at hnext
  length := by rw [generations, length_generationsOf, heightAll, heightAll, Nat.max_zero]
  nonempty := fun _ => ne_nil_of_mem_generationsOf

theorem sweep?_top (o : Organization) :
    sweep? [(o, 0)] .empty =
      some ⟨o.generations.mapIdx fun d row => row.map (.ofNode · d)⟩ := by
  have h := sweep?_generationsOf [o] []
  simpa [generations, Levels.empty] using h

/-- **The rows of an organization are its generations**, each member copied with its depth and the
number of its children. The sweep that computes them is never without an answer, so no member is
ever given a row beyond the next one. -/
theorem levels_eq_generations (o : Organization) :
    Rows o o.generations ∧
      sweep? [(o, 0)] .empty = some o.levels ∧
      flatten (some o) = .ok o.levels ∧
      o.levels.rows = o.generations.mapIdx fun d row =>
        row.map fun p => ⟨p.member, d, p.children.length⟩ := by
  have hlevels : o.levels = ⟨o.generations.mapIdx fun d row => row.map (.ofNode · d)⟩ := by
    rw [levels, sweep?_top, Option.getD_some]
  refine ⟨rows_generations o, ?_, rfl, ?_⟩
  · rw [sweep?_top, hlevels]
  · rw [hlevels]
    rfl

end Organization

end Downline
