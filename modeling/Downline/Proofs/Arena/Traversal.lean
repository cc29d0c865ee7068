import Downline.Proofs.Arena.Branches
import Downline.Proofs.Arena.Measures

/-!
# Both walks, from end to end

The walks of an arena are given a number of steps, and each of them would be over early at a pending
handle that names no node: the first one stops there, the second one passes over it. Here they are
told without a number of steps and without such handles. `WalksDown` and `WalksUp` have one rule for
each step that does its work and one for the end, at which nothing is pending; so a walk that is
related to its start has come to its end, and has dropped nothing on the way.

From the root on, both walks of any arena that calls lead to are of this kind. They go through the
branch at the root, from the top down and from the bottom up, and so they visit the nodes at or
below the root, each once (`Reached.walks_through_branch`).
-/

namespace Downline.Arena

/-- A walk that visits each pending node before its children, until nothing is pending. -/
inductive WalksDown (a : Arena) : List Nat → List (Nat × ArenaNode) → Prop
  | done : WalksDown a [] []
  | visit {h : Nat} {n : ArenaNode} {rest : List Nat} {visited : List (Nat × ArenaNode)} :
      a.node? h = some n → WalksDown a (n.children ++ rest) visited →
      WalksDown a (h :: rest) ((h, n) :: visited)

/-- A walk that visits each pending node after its children, until nothing is pending. A pending
node is met twice: first its children are put in front of it, and when they are done it is
visited. -/
inductive WalksUp (a : Arena) : List (Nat × Bool) → List (Nat × ArenaNode) → Prop
  | done : WalksUp a [] []
  | meet {h : Nat} {n : ArenaNode} {rest : List (Nat × Bool)} {visited : List (Nat × ArenaNode)} :
      a.node? h = some n → WalksUp a (n.children.map (·, false) ++ (h, true) :: rest) visited →
      WalksUp a ((h, false) :: rest) visited
  | visit {h : Nat} {n : ArenaNode} {rest : List (Nat × Bool)} {visited : List (Nat × ArenaNode)} :
      a.node? h = some n → WalksUp a rest visited →
      WalksUp a ((h, true) :: rest) ((h, n) :: visited)

variable {a : Arena} {b : Branch}

/-! ## Through a branch -/

/-- What a walk does with one thing after the other, it does with all of them in a row. -/
theorem walks_flatMap {ι α β : Type} {R : List α → List β → Prop} {todo : ι → List α}
    {found : ι → List β} {xs : List ι}
    (h : ∀ x ∈ xs, ∀ rest visited, R rest visited → R (todo x ++ rest) (found x ++ visited))
    {rest : List α} {visited : List β} (hrest : R rest visited) :
    R (xs.flatMap todo ++ rest) (xs.flatMap found ++ visited) := by
  induction xs with
  | nil => exact hrest
  | cons x xs ih =>
    obtain ⟨hx, hxs⟩ := List.forall_mem_cons.mp h
    rw [List.flatMap_cons, List.flatMap_cons, List.append_assoc, List.append_assoc]
    exact hx _ _ (ih hxs)

theorem Bears.walksDown (hb : a.Bears b) :
    ∀ rest visited, a.WalksDown rest visited →
      a.WalksDown ([b.handle] ++ rest) (b.preorder ++ visited) := by
  induction hb with
  | @node h n bs hn hbs _ ih =>
    intro rest visited hrest
    have hbelow := walks_flatMap ih hrest
    rw [← List.map_eq_flatMap, hbs] at hbelow
    rw [Branch.preorder_node, Branch.handle_node]
    exact .visit hn hbelow

theorem Bears.walksUp (hb : a.Bears b) :
    ∀ rest visited, a.WalksUp rest visited →
      a.WalksUp ([(b.handle, false)] ++ rest) (b.postorder ++ visited) := by
  induction hb with
  | @node h n bs hn hbs _ ih =>
    intro rest visited hrest
    have hpending : bs.flatMap (fun b => [(b.handle, false)]) = n.children.map (·, false) := by
      rw [← List.map_eq_flatMap, ← hbs, List.map_map]
      rfl
    -- the node itself is pending behind its children
    have hbelow := walks_flatMap ih (WalksUp.visit hn hrest)
    rw [hpending] at hbelow
    rw [Branch.postorder_node, Branch.handle_node, List.append_assoc, List.singleton_append]
    exact .meet hn hbelow

theorem Branch.preorder_perm_postorder (b : Branch) : b.preorder.Perm b.postorder := by
  induction b using Branch.ind with
  | node h n bs ih =>
    rw [preorder_node, postorder_node]
    have hbelow : (bs.flatMap preorder).Perm (bs.flatMap postorder) := List.Perm.flatMap_left bs ih
    exact (hbelow.cons (h, n)).trans (List.perm_append_singleton (h, n) _).symm

/-! ## Through an arena -/

/-- A list shows the nodes at or below the root, each once and no other. -/
structure ShowsRooted (a : Arena) (visited : List (Nat × ArenaNode)) : Prop where
  mem_iff : ∀ h n, (h, n) ∈ visited ↔ a.Rooted h ∧ a.node? h = some n
  once : (visited.map Prod.fst).Nodup

theorem ShowsRooted.perm {visited visited' : List (Nat × ArenaNode)} (h : a.ShowsRooted visited)
    (hperm : visited.Perm visited') : a.ShowsRooted visited' where
  mem_iff k n := hperm.mem_iff.symm.trans (h.mem_iff k n)
  once := (hperm.map Prod.fst).nodup_iff.mp h.once

theorem Sound.showsRooted_preorder (ha : a.Sound) : a.ShowsRooted a.preorder where
  mem_iff h n := by
    rw [← ha.mem_preorder_iff]
    constructor
    · intro hmem
      exact ⟨List.mem_map_of_mem hmem, node?_of_mem_preorderFrom hmem⟩
    · rintro ⟨hmem, hn⟩
      obtain ⟨⟨k, m⟩, hvisited, rfl⟩ := List.mem_map.mp hmem
      obtain rfl : m = n := Option.some.inj ((node?_of_mem_preorderFrom hvisited).symm.trans hn)
      exact hvisited
  once := ha.nodup_preorder

/-- What the two walks of an arena are. -/
structure Walked (a : Arena) : Prop where
  /-- Without a root there is nothing to visit. -/
  rootless : a.root = none → a.preorder = [] ∧ a.postorder = []
  /-- At the root a branch grows, with the children of each node from left to right below it, and
  the walks are its nodes from the top down and from the bottom up. -/
  branch : ∀ r, a.root = some r →
    (∃ b, a.Bears b ∧ b.handle = r) ∧
    ∀ b, a.Bears b → b.handle = r → a.preorder = b.preorder ∧ a.postorder = b.postorder
  /-- Both come to their end, and no pending handle names no node. -/
  down : a.WalksDown a.root.toList a.preorder
  up : a.WalksUp (a.root.toList.map (·, false)) a.postorder
  /-- So the number of steps that they are given makes no difference once it is large enough. -/
  downSteps : ∀ fuel, a.size ≤ fuel → a.preorderFrom fuel a.root.toList = a.preorder
  upSteps : ∀ fuel, 2 * a.size ≤ fuel →
    a.postorderFrom fuel (a.root.toList.map (·, false)) = a.postorder
  downRooted : a.ShowsRooted a.preorder
  upRooted : a.ShowsRooted a.postorder
  perm : a.preorder.Perm a.postorder

theorem walks_rootless (h : a.root = none) : a.preorder = [] ∧ a.postorder = [] := by
  rw [preorder, postorder, h]
  exact ⟨a.preorderFrom_nil _, a.postorderFrom_nil _⟩

/-- Any branch at the root gives both walks. -/
theorem Sound.walks_eq (ha : a.Sound) {r : Nat} (hr : a.root = some r) {b : Branch}
    (hb : a.Bears b) (hhandle : b.handle = r) :
    a.preorder = b.preorder ∧ a.postorder = b.postorder :=
  ⟨ha.preorder_eq hr hb hhandle, ha.postorder_eq hr hb hhandle⟩

/-- Both walks come to their end, and they visit the same. -/
theorem Sound.walks_end (ha : a.Sound) :
    a.WalksDown a.root.toList a.preorder ∧ a.WalksUp (a.root.toList.map (·, false)) a.postorder ∧
      a.preorder.Perm a.postorder := by
  cases hr : a.root with
  | none =>
    obtain ⟨hpre, hpost⟩ := walks_rootless hr
    rw [hpre, hpost]
    exact ⟨.done, .done, .nil⟩
  | some r =>
    obtain ⟨b, hb, hhandle⟩ := ha.exists_branch_root hr
    obtain ⟨hpre, hpost⟩ := ha.walks_eq hr hb hhandle
    have hdown := hb.walksDown [] [] .done
    have hup := hb.walksUp [] [] .done
    rw [List.append_nil, List.append_nil, hhandle] at hdown hup
    rw [hpre, hpost]
    exact ⟨hdown, hup, b.preorder_perm_postorder⟩

/-- **Both walks of an arena go through the branch at its root**, from end to end, whatever calls
led to the arena: one from the top down, the other from the bottom up, and each visits every node at
or below the root once. -/
theorem Reached.walks_through_branch (h : a.Reached) : a.Walked := by
  have ha := h.sound
  obtain ⟨hdown, hup, hperm⟩ := ha.walks_end
  obtain ⟨-, -, hupSteps⟩ := ha.exists_finishes
  exact
    { rootless := walks_rootless
      branch := fun _ hr => ⟨ha.exists_branch_root hr, fun _ hb hhandle =>
        ha.walks_eq hr hb hhandle⟩
      down := hdown
      up := hup
      downSteps := fun _ hfuel => ha.preorderFrom_of_le hfuel
      upSteps := hupSteps
      downRooted := ha.showsRooted_preorder
      upRooted := ha.showsRooted_preorder.perm hperm
      perm := hperm }

theorem walks_through_branch_replanted :
    (after replanted).Reached ∧ (after replanted).Walked ∧ (after replanted).size = 10 ∧
      (after replanted).root = some 2 ∧
      (after replanted).preorder.map Prod.fst = [2, 3, 6, 5, 7, 9] ∧
      (after replanted).postorder.map Prod.fst = [6, 3, 5, 9, 7, 2] := by
  have hreached := reached_after replanted
  exact ⟨hreached, hreached.walks_through_branch, by decide +kernel, by decide +kernel,
    by decide +kernel, by decide +kernel⟩

end Downline.Arena
