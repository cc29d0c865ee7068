import Downline.Proofs.Arena.Nested
import Mathlib.Algebra.BigOperators.Ring.List
import Mathlib.Algebra.Ring.Nat

/-!
# Branches of an arena

A branch is the part of an arena at and below one node, unfolded into a tree of nodes. What is shown
there as a tree of members is the branch with the handles left out (`Bears.shows`,
`Shows.exists_branch`), and other images of it are told in the same way, by one recursion (`fold`).

Both walks of an arena keep a list of pending nodes. From the root on, the first one goes through
the branch at the root and visits each node before those below it, and the second one after them
(`Sound.preorder_eq`, `Sound.postorder_eq`); as many steps as there are nodes, and twice as many,
are enough. So the nodes of that branch are those at or below the root, each once.
-/

namespace Downline.Arena

/-- A node with its handle, and the branches below it. -/
inductive Branch where
  | node (handle : Nat) (content : ArenaNode) (below : List Branch)

namespace Branch

@[elab_as_elim]
theorem ind {P : Branch → Prop} (node : ∀ h n bs, (∀ b ∈ bs, P b) → P (.node h n bs)) : ∀ b, P b
  | .node h n bs => node h n bs fun b _ => ind node b

section Fold

variable {α : Type*} (f : Nat → ArenaNode → List α → α)

mutual

/-- What comes of a branch if each node is told from what has come of the branches below it. -/
def fold : Branch → α
  | node h n bs => f h n (foldAll bs)

def foldAll : List Branch → List α
  | [] => []
  | b :: bs => b.fold :: foldAll bs

end

theorem fold_node (h : Nat) (n : ArenaNode) (bs : List Branch) :
    (node h n bs).fold f = f h n (bs.map (fold f)) := by
  have hall : foldAll f bs = bs.map (fold f) := by
    induction bs with
    | nil => rw [foldAll, List.map_nil]
    | cons b bs ih => rw [foldAll, ih, List.map_cons]
  rw [fold, hall]

end Fold

/-- The handle of the node at the top. -/
def handle : Branch → Nat
  | node h _ _ => h

@[simp] theorem handle_node (h : Nat) (n : ArenaNode) (bs : List Branch) :
    (node h n bs).handle = h := rfl

/-- The nodes from the top down, each before the nodes below it. -/
def preorder (b : Branch) : List (Nat × ArenaNode) :=
  b.fold fun h n below => (h, n) :: below.flatten

@[simp] theorem preorder_node (h : Nat) (n : ArenaNode) (bs : List Branch) :
    (node h n bs).preorder = (h, n) :: bs.flatMap preorder := fold_node ..

/-- The nodes from the bottom up, each after the nodes below it. -/
def postorder (b : Branch) : List (Nat × ArenaNode) :=
  b.fold fun h n below => below.flatten ++ [(h, n)]

@[simp] theorem postorder_node (h : Nat) (n : ArenaNode) (bs : List Branch) :
    (node h n bs).postorder = bs.flatMap postorder ++ [(h, n)] := fold_node ..

/-- The members on the nodes, as a tree. -/
def organization (b : Branch) : Organization := b.fold fun _ n os => .node n.member os

@[simp] theorem organization_node (h : Nat) (n : ArenaNode) (bs : List Branch) :
    (node h n bs).organization = .node n.member (bs.map organization) := fold_node ..

theorem preorder_organization (b : Branch) :
    b.organization.preorder = b.preorder.map (·.2.member) := by
  induction b using ind with
  | node h n bs ih =>
    rw [organization_node, Organization.preorder_node, preorder_node, List.map_cons,
      List.flatMap_map, List.map_flatMap, List.flatMap_congr ih]

theorem size_organization (b : Branch) : b.organization.size = b.preorder.length := by
  rw [← Organization.length_preorder, preorder_organization, List.length_map]

/-- The steps of a walk along a branch: one for the node at the top and those for each branch
below. -/
theorem length_preorder_node (h : Nat) (n : ArenaNode) (bs : List Branch) :
    (node h n bs).preorder.length = (bs.map (·.preorder.length)).sum + 1 := by
  rw [preorder_node, List.length_cons, List.length_flatMap]

end Branch

/-- A branch grows in an arena: its nodes are nodes of the arena, and the branches below a node are
those of its children, from left to right. -/
inductive Bears (a : Arena) : Branch → Prop
  | node {h : Nat} {n : ArenaNode} {bs : List Branch} : a.node? h = some n →
      bs.map Branch.handle = n.children → (∀ b ∈ bs, Bears a b) → Bears a (.node h n bs)

variable {a : Arena} {b : Branch}

/-- What is shown at a node is the branch there without its handles. -/
theorem Bears.shows (hb : a.Bears b) : a.Shows b.handle b.organization := by
  induction hb with
  | @node h n bs hn hbs _ ih =>
    rw [Branch.organization_node, shows_node_iff]
    refine ⟨n, hn, rfl, ?_⟩
    rw [← hbs, List.forall₂_map_left_iff, List.forall₂_map_right_iff, List.forall₂_same]
    exact ih

theorem Shows.exists_branch {h : Nat} {o : Organization} (ho : a.Shows h o) :
    ∃ b, a.Bears b ∧ b.handle = h ∧ b.organization = o := by
  refine ho.ind (P := fun h o => ∃ b, a.Bears b ∧ b.handle = h ∧ b.organization = o)
    (Q := fun hs os => ∃ bs : List Branch, (∀ b ∈ bs, a.Bears b) ∧ bs.map Branch.handle = hs ∧
      bs.map Branch.organization = os) ?_ ?_ ?_
  · rintro h n cs hn - ⟨bs, hbs, hhandles, rfl⟩
    exact ⟨.node h n bs, .node hn hhandles hbs, rfl, Branch.organization_node h n bs⟩
  · exact ⟨[], nofun, rfl, rfl⟩
  · rintro _ _ _ _ ⟨b, hb, rfl, rfl⟩ ⟨bs, hbs, rfl, rfl⟩
    exact ⟨b :: bs, List.forall_mem_cons.mpr ⟨hb, hbs⟩, rfl, rfl⟩

/-! ## Walks -/

/-- A step for each node takes the first walk through a branch. -/
theorem Bears.passes_preorderFrom (hb : a.Bears b) :
    Walk.Passes a.preorderFrom b.preorder.length [b.handle] b.preorder := by
  induction hb with
  | @node h n bs hn hbs _ ih =>
    have hbelow := Walk.Passes.flatMap ih
    rw [← List.map_eq_flatMap, hbs] at hbelow
    intro fuel rest
    rw [Branch.length_preorder_node, Nat.add_right_comm, Branch.handle_node,
      List.singleton_append, Branch.preorder_node]
    simp only [preorderFrom, hn, hbelow _ _, List.cons_append]

/-- Two steps for each node take the second walk through it. -/
theorem Bears.passes_postorderFrom (hb : a.Bears b) :
    Walk.Passes a.postorderFrom (2 * b.preorder.length) [(b.handle, false)] b.postorder := by
  induction hb with
  | @node h n bs hn hbs _ ih =>
    have hbelow := Walk.Passes.flatMap ih
    rw [← List.map_eq_flatMap, List.sum_map_mul_left] at hbelow
    have hpending : bs.map (fun b => (b.handle, false)) = n.children.map (·, false) := by
      rw [← hbs, List.map_map]
      rfl
    rw [hpending] at hbelow
    intro fuel rest
    -- the first step puts the children in front, the last one comes back to the node
    have hsteps : 2 * (Branch.node h n bs).preorder.length + fuel =
        2 * (bs.map (·.preorder.length)).sum + (fuel + 1) + 1 := by
      rw [Branch.length_preorder_node]
      omega
    have hlast : a.postorderFrom (fuel + 1) ((h, true) :: rest) =
        (h, n) :: a.postorderFrom fuel rest := by
      simp only [postorderFrom, hn, if_true]
    rw [hsteps, Branch.handle_node, Branch.postorder_node, List.append_assoc,
      List.singleton_append, List.singleton_append, ← hlast, ← hbelow]
    simp only [postorderFrom, hn, Bool.false_eq_true, if_false]

namespace Sound

variable (ha : a.Sound) {r : Nat} (hr : a.root = some r)

include ha hr

theorem exists_branch_root : ∃ b, a.Bears b ∧ b.handle = r := by
  obtain ⟨o, ho⟩ := ha.exists_shows_root hr
  obtain ⟨b, hb, hhandle, -⟩ := ho.exists_branch
  exact ⟨b, hb, hhandle⟩

variable (hb : a.Bears b) (hhandle : b.handle = r)

include hb hhandle

theorem length_preorder_le : b.preorder.length ≤ a.size := by
  rw [← b.size_organization]
  exact ha.size_le_of_shows hr (hhandle ▸ hb.shows)

/-- **The first walk goes through the branch at the root**, each node before those below it. -/
theorem preorder_eq : a.preorder = b.preorder := by
  rw [preorder, hr, ← hhandle]
  exact hb.passes_preorderFrom.eq_of_le a.preorderFrom_nil (ha.length_preorder_le hr hb hhandle)

/-- **The second walk goes through the branch at the root**, each node after those below it; it is
over in twice as many steps as there are nodes. -/
theorem postorderFrom_eq {fuel : Nat} (hfuel : 2 * a.size ≤ fuel) :
    a.postorderFrom fuel (a.root.toList.map (·, false)) = b.postorder := by
  have hle := ha.length_preorder_le hr hb hhandle
  rw [hr, ← hhandle]
  exact hb.passes_postorderFrom.eq_of_le a.postorderFrom_nil (by omega)

theorem postorder_eq : a.postorder = b.postorder :=
  ha.postorderFrom_eq hr hb hhandle (Nat.le_refl _)

/-- Its nodes are those at or below the root. -/
theorem mem_preorder_branch_iff {h : Nat} : h ∈ b.preorder.map Prod.fst ↔ a.Rooted h := by
  rw [← ha.preorder_eq hr hb hhandle, ha.mem_preorder_iff]

theorem nodup_preorder_branch : (b.preorder.map Prod.fst).Nodup := by
  rw [← ha.preorder_eq hr hb hhandle]
  exact ha.nodup_preorder

end Sound

end Downline.Arena
