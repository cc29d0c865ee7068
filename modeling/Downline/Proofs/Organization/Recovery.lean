import Downline.Proofs.Organization.Rows

/-!
# An organization from its rows

Rows say of a member how many children it has, not which ones. They need not say more: the children
of a row's members are the row below, family after family, so that row falls into families by the
counts alone. Put together in this way from the lowest row up, the rows of an organization give it
back (`Levels.organization?_levels`), and different organizations have different rows, also where
ids occur more than once (`flatten_eq_iff`).

Nothing is said of rows whose counts do not fit the row below.
-/

namespace Downline

namespace Levels

/-- Puts trees below the members of a row. Each member takes as many as it has children, from what
those to its left have left over. -/
def hang : List LevelEntry → List Organization → List Organization
  | [], _ => []
  | e :: row, below =>
    .node e.member (below.take e.childCount) :: hang row (below.drop e.childCount)

/-- The organization that the rows make up, put together from the lowest row up. -/
def organization? (l : Levels) : Option Organization := (l.rows.foldr hang []).head?

/-- A row takes back what hangs below it, whatever depth it is written down with. -/
theorem hang_flatMap_children (os : List Organization) (depth : Nat) :
    hang (os.map (.ofNode · depth)) (os.flatMap Organization.children) = os := by
  induction os with
  | nil => rfl
  | cons o os ih =>
    obtain ⟨m, cs⟩ := o
    have hcount : (LevelEntry.ofNode (.node m cs) depth).childCount = cs.length := rfl
    rw [List.map_cons, List.flatMap_cons, hang, hcount, Organization.children_node,
      List.take_left, List.drop_left, ih]
    rfl

/-- The rows from a list of siblings and cousins on down make up that list. -/
theorem foldr_hang_generationsOf (os : List Organization) (depth : Nat) :
    ((Organization.generationsOf os).mapIdx fun k row =>
      row.map (.ofNode · (depth + k))).foldr hang [] = os := by
  induction os using Organization.generationsOf.induct generalizing depth with
  | case1 => simp [Organization.generationsOf]
  | case2 o os ih =>
    have hbelow := ih (depth + 1)
    simp only [Nat.add_assoc, Nat.add_comm 1] at hbelow
    rw [Organization.generationsOf, List.mapIdx_cons, List.foldr_cons, hbelow]
    exact hang_flatMap_children (o :: os) depth

/-- **The rows of an organization make it up again.** -/
theorem organization?_levels (o : Organization) : o.levels.organization? = some o := by
  have hrows := foldr_hang_generationsOf [o] 0
  simp only [Nat.zero_add] at hrows
  rw [organization?, Organization.levels, Organization.sweep?_top, Option.getD_some,
    Organization.generations, hrows, List.head?_cons]

end Levels

namespace Organization

/-- **Nothing is lost in rows.** They make up the organization that they were taken from, so two
organizations with the same rows are the same. -/
theorem flatten_eq_iff (o p : Organization) :
    o.levels.organization? = some o ∧ (flatten (some o) = flatten (some p) ↔ o = p) := by
  refine ⟨Levels.organization?_levels o, fun h => ?_, fun h => h ▸ rfl⟩
  have hlevels : o.levels = p.levels := Except.ok.inj h
  have hsame := Levels.organization?_levels o
  rw [hlevels, Levels.organization?_levels] at hsame
  exact (Option.some.inj hsame).symm

end Organization

end Downline
