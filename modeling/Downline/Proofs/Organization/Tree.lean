import Downline.Organization.Basic
import Mathlib.Data.List.Basic

/-!
# Organizations as trees

What holds of a member's organization if it holds of all organizations directly below holds of
every organization (`Organization.ind`). With it come the lists that a tree gives rise to: each
companion on a list of organizations is the `flatMap` of the function on one, and the height of a
row is that of the row below it and one more. Counting the members from a list of pending nodes
gives the size of the tree (`nodeCount_eq`).
-/

namespace Downline.Organization

/-- Induction along a tree. -/
@[elab_as_elim]
theorem ind {P : Organization → Prop}
    (node : ∀ m cs, (∀ c ∈ cs, P c) → P (.node m cs)) : ∀ o, P o
  | .node m cs => node m cs fun c _ => ind node c

/-! ## Members from the top down -/

theorem preorderAll_eq (os : List Organization) : preorderAll os = os.flatMap preorder := by
  induction os with
  | nil => rw [preorderAll, List.flatMap_nil]
  | cons o os ih => rw [preorderAll, ih, List.flatMap_cons]

@[simp] theorem preorder_node (m : Member) (cs : List Organization) :
    (node m cs).preorder = m :: cs.flatMap preorder := by
  rw [preorder, preorderAll_eq]

/-! ## Organizations inside an organization -/

mutual

/-- The organization of each member, that member's own first. -/
def subtrees : Organization → List Organization
  | node m cs => node m cs :: subtreesAll cs

def subtreesAll : List Organization → List Organization
  | [] => []
  | o :: os => o.subtrees ++ subtreesAll os

end

theorem subtreesAll_eq (os : List Organization) : subtreesAll os = os.flatMap subtrees := by
  induction os with
  | nil => rw [subtreesAll, List.flatMap_nil]
  | cons o os ih => rw [subtreesAll, ih, List.flatMap_cons]

@[simp] theorem subtrees_node (m : Member) (cs : List Organization) :
    (node m cs).subtrees = node m cs :: cs.flatMap subtrees := by
  rw [subtrees, subtreesAll_eq]

theorem self_mem_subtrees (o : Organization) : o ∈ o.subtrees := by
  cases o
  simp

theorem mem_subtrees_of_mem_children {o s c : Organization} (hs : s ∈ o.subtrees)
    (hc : c ∈ s.children) : c ∈ o.subtrees := by
  induction o using ind with
  | node m cs ih =>
    rw [subtrees_node, List.mem_cons, List.mem_flatMap] at hs ⊢
    rcases hs with rfl | ⟨d, hd, hs⟩
    · exact .inr ⟨c, hc, self_mem_subtrees c⟩
    · exact .inr ⟨d, hd, ih d hd hs⟩

theorem map_member_subtrees (o : Organization) : o.subtrees.map member = o.preorder := by
  induction o using ind with
  | node m cs ih =>
    simp only [subtrees_node, preorder_node, List.map_cons, List.map_flatMap, member_node]
    rw [List.flatMap_congr ih]

/-! ## Rows -/

theorem heightAll_append (os ps : List Organization) :
    heightAll (os ++ ps) = max (heightAll os) (heightAll ps) := by
  induction os with
  | nil => rw [List.nil_append, heightAll, Nat.zero_max]
  | cons o os ih => rw [List.cons_append, heightAll, heightAll, ih, Nat.max_assoc]

theorem height_eq (o : Organization) : o.height = heightAll o.children + 1 := by
  cases o
  rw [height, children_node]

/-- A row that is not empty is one higher than the row below it. -/
theorem heightAll_cons (o : Organization) (os : List Organization) :
    heightAll (o :: os) = heightAll ((o :: os).flatMap children) + 1 := by
  induction os generalizing o with
  | nil => rw [heightAll, heightAll, Nat.max_zero, height_eq, List.flatMap_singleton]
  | cons p os ih =>
    rw [heightAll, ih p, height_eq, Nat.add_max_add_right, ← heightAll_append, ← List.flatMap_cons]

/-! ## Sizes -/

theorem size_le_sizeAll {o : Organization} {os : List Organization} (h : o ∈ os) :
    o.size ≤ sizeAll os := by
  obtain ⟨before, after, rfl⟩ := List.append_of_mem h
  simp only [sizeAll_append, sizeAll_cons]
  omega

theorem length_flatMap_preorder {os : List Organization}
    (h : ∀ o ∈ os, o.preorder.length = o.size) : (os.flatMap preorder).length = sizeAll os := by
  induction os with
  | nil => rw [List.flatMap_nil, List.length_nil, sizeAll_nil]
  | cons o os ih =>
    have hrest := ih fun p hp => h p (List.mem_cons_of_mem o hp)
    rw [List.flatMap_cons, List.length_append, h o List.mem_cons_self, hrest, sizeAll_cons]

theorem length_preorder (o : Organization) : o.preorder.length = o.size := by
  induction o using ind with
  | node m cs ih =>
    rw [preorder_node, List.length_cons, length_flatMap_preorder ih, size_node]

theorem countPending_eq (os : List Organization) (n : Nat) :
    countPending os n = n + sizeAll os := by
  induction os, n using countPending.induct with
  | case1 n => rw [countPending, sizeAll_nil, Nat.add_zero]
  | case2 m cs rest n ih =>
    rw [countPending, ih, sizeAll_append, sizeAll_cons, size_node]
    omega

/-- Counting from a list of pending nodes counts every member once. -/
theorem nodeCount_eq (o : Organization) : o.nodeCount = o.size := by
  rw [nodeCount, countPending_eq, sizeAll_cons, sizeAll_nil, Nat.zero_add, Nat.add_zero]

end Downline.Organization
