import Downline.Proofs.Arena.Calls
import Downline.Proofs.Arena.Standing

/-!
# An arena and its nested tree

Whatever calls lead to an arena, its nested tree is what lies below its root and nothing else: nodes
that hang nowhere, and tops that another one has replaced, are not in it (`organization?_unfolds`).
The arena has no nested tree only if it has no root. While the tree is put together no node lacks a
finished child, and at the end one tree is left.

The arena stores depths and the rows of the tree are counted anew. Both go by generations: the root,
its children, their children and so on. The nodes of a generation store its number as their depth,
and show what stands in the row of that number, in the same order (`Sound.map_entry_generation`). So
the arena measures what its tree measures (`measures_agree`).
-/

namespace Downline.Arena

variable {a : Arena}

/-! ## The nested tree -/

/-- An arena with two tops, of which the second one counts. Below the first one another node hangs;
two nodes hang nowhere, one of which named a handle that came later and the other one itself; and
of two members that were placed one has the id of the first top. -/
def replanted : List Call :=
  let bare (id : String) : Member := (Record.bare id none none).member
  [.insert (bare "a") none none, .insert (bare "b") (some 0) none,
    .insert (bare "c") none none, .insert (bare "d") (some 2) none,
    .insert (bare "e") (some 8) none, .insert (bare "f") (some 2) (some .left),
    .insert (bare "g") (some 3) none, .place ⟨"c", bare "h", .binary⟩,
    .insert (bare "i") (some 8) none, .place ⟨"h", bare "a", .unilevel⟩]

/-- **The nested tree of an arena is what its root unfolds into**, in any arena that calls lead to:
there is none exactly if there is no root. The second walk ends, when the turn of a node comes the
latest finished trees are those of its children, and at the end the tree of the root is left. -/
theorem Reached.organization?_unfolds (ha : a.Reached) :
    (a.organization? = none ↔ a.root = none) ∧
      (∀ o, a.organization? = some o ↔ ∃ r, a.root = some r ∧ a.Shows r o) ∧
      (∀ r, a.root = some r → ∃ o, a.finished? = some [(r, o)] ∧ a.Shows r o) ∧
      (∀ fuel, 2 * a.size ≤ fuel →
        a.postorderFrom fuel (a.root.toList.map (·, false)) = a.postorder) ∧
      ∀ before h n later, a.postorder = before ++ (h, n) :: later →
        ∃ kids rest : List (Nat × Organization),
          finishAll? [] before = some (kids.reverse ++ rest) ∧
            kids.map Prod.fst = n.children ∧ ∀ e ∈ kids, a.Shows e.1 e.2 := by
  have hs := ha.sound
  obtain ⟨built, hfinishes, hends⟩ := hs.exists_finishes
  refine ⟨hs.organization?_eq_none_iff, fun o => hs.organization?_eq_some_iff, ?_, hends, ?_⟩
  · intro r hr
    obtain ⟨o, ho⟩ := hs.exists_shows_root hr
    exact ⟨o, (hs.finishes_postorder hr ho).1.finishAll?_eq, ho⟩
  · intro before h n later hwalk
    rw [hwalk] at hfinishes
    exact hfinishes.exists_kids

theorem organization?_unfolds_replanted :
    let bare (id : String) : Member := (Record.bare id none none).member
    let arena := after replanted
    let o : Organization := .node (bare "c")
      [.node (bare "d") [.node (bare "g") []], .node (bare "f") [],
        .node (bare "h") [.node (bare "a") []]]
    arena.organization? = some o ∧ arena.Shows 2 o ∧ arena.finished? = some [(2, o)] := by
  intro bare arena o
  obtain ⟨-, htree, hfinished, -⟩ := (reached_after replanted).organization?_unfolds
  have hroot : arena.root = some 2 := by decide +kernel
  obtain ⟨o', hleft, hshows⟩ := hfinished 2 hroot
  have ho : arena.organization? = some o := by decide +kernel
  obtain rfl : o' = o := Option.some.inj (((htree o').mpr ⟨2, hroot, hshows⟩).symm.trans ho)
  exact ⟨ho, hshows, hleft⟩

/-! ## Generations -/

/-- Handles of the nodes so many steps below the root, family after family. -/
def generation (a : Arena) : Nat → List Nat
  | 0 => a.root.toList
  | d + 1 => (a.generation d).flatMap a.childrenOf

theorem rooted_iff_mem_generation {h : Nat} : a.Rooted h ↔ ∃ d, h ∈ a.generation d := by
  constructor
  · rintro ⟨r, hr, hbelow⟩
    induction hbelow with
    | refl => exact ⟨0, Option.mem_toList.mpr hr⟩
    | @tail p c _ hc ih =>
      obtain ⟨d, hp⟩ := ih
      exact ⟨d + 1, List.mem_flatMap.mpr ⟨p, hp, hc⟩⟩
  · rintro ⟨d, hh⟩
    induction d generalizing h with
    | zero => exact ⟨h, Option.mem_toList.mp hh, .refl⟩
    | succ d ih =>
      obtain ⟨p, hp, hc⟩ := List.mem_flatMap.mp hh
      obtain ⟨r, hr, hbelow⟩ := ih hp
      exact ⟨r, hr, hbelow.tail hc⟩

/-- They show the generations of the nested tree. -/
theorem Shows.forall₂_generation {r : Nat} {o : Organization} (ho : a.Shows r o)
    (hr : a.root = some r) (d : Nat) :
    List.Forall₂ a.Shows (a.generation d) ((o.generations[d]?).getD []) := by
  induction d with
  | zero =>
    rw [generation, hr, Organization.generations, Organization.getD_generationsOf_zero]
    exact .cons ho .nil
  | succ d ih =>
    rw [generation, Organization.generations, Organization.getD_generationsOf_succ]
    refine List.rel_flatMap ih ?_
    rintro h ⟨m, cs⟩ hshows
    exact (unfolds_node_iff.mp hshows).2

namespace Sound

variable (ha : a.Sound)

include ha

/-- The nodes of a generation store its number. -/
theorem depth_of_mem_generation {d h : Nat} (hh : h ∈ a.generation d) :
    ∃ n, a.node? h = some n ∧ n.depth = d := by
  induction d generalizing h with
  | zero =>
    obtain ⟨n, hn, htop⟩ := ha.root_top (Option.mem_toList.mp hh)
    exact ⟨n, hn, ha.depth_zero hn (by rw [htop]; nofun)⟩
  | succ d ih =>
    obtain ⟨p, hp, hc⟩ := List.mem_flatMap.mp hh
    obtain ⟨n, hn, rfl⟩ := ih hp
    obtain ⟨o, ho⟩ := ha.exists_shows_of_rooted (rooted_iff_mem_generation.mpr ⟨n.depth, hp⟩)
    exact ha.depth_of_mem_children ho hn (childrenOf_eq hn ▸ hc)

section Root

variable {r : Nat} {o : Organization} (hr : a.root = some r) (ho : a.Shows r o)

include hr ho

/-- **A generation of the arena is a row of its nested tree**, node by node. -/
theorem map_entry_generation (d : Nat) :
    (a.generation d).map (fun h => (a.node? h).map (·.entry)) =
      ((o.levels.row? d).getD []).map some := by
  have hshows := ho.forall₂_generation hr d
  rw [Organization.row_levels_eq_map, List.map_map, ← List.forall₂_eq_eq_eq,
    List.forall₂_map_left_iff, List.forall₂_map_right_iff]
  refine List.forall₂_iff_zip.mpr ⟨hshows.length_eq, fun {h s} hmem => ?_⟩
  obtain ⟨n, hn, rfl⟩ := ha.depth_of_mem_generation (List.of_mem_zip hmem).1
  have hs : a.Shows h s := (List.forall₂_iff_zip.mp hshows).2 hmem
  rw [hn, Option.map_some, hs.entry_eq hn]
  rfl

/-- Members without children are met in the same order by both. -/
theorem leafIds_eq : a.leafIds = (o.subtrees.filter (·.isLeaf)).map (·.member.id) := by
  have hkeys : a.preorder.map (fun e => (e.2.member, e.2.children.length)) =
      o.subtrees.map fun s => (s.member, s.children.length) := by
    rw [← o.map_entriesFrom_eq_map_subtrees 0, ← ha.entries_preorder hr ho, List.map_map]
    rfl
  have hempty {α : Type} (l : List α) : decide (l.length = 0) = l.isEmpty := by
    rw [Bool.eq_iff_iff, decide_eq_true_iff, List.length_eq_zero_iff, List.isEmpty_iff]
  calc a.leafIds
      = ((a.preorder.map fun e => (e.2.member, e.2.children.length)).filter (·.2 = 0)).map
          (·.1.id) := by
        simp only [List.filter_map, List.map_map, Function.comp_def, hempty]
        rfl
    _ = ((o.subtrees.map fun s => (s.member, s.children.length)).filter (·.2 = 0)).map
          (·.1.id) := by rw [hkeys]
    _ = (o.subtrees.filter (·.isLeaf)).map (·.member.id) := by
        simp only [List.filter_map, List.map_map, Function.comp_def, hempty, Organization.isLeaf]

end Root

end Sound

/-! ## Measures -/

/-- An arena measures what an organization measures, and its generations are the rows of the
organization. -/
structure Agrees (a : Arena) (o : Organization) : Prop where
  /-- The walk that the measures are taken on is over: more steps visit nothing more. -/
  ended : ∀ fuel, a.size ≤ fuel → a.preorderFrom fuel a.root.toList = a.preorder
  depth : a.depth = o.levels.length
  count : a.preorder.length = o.nodeCount
  total : a.preorder.length = o.levels.nodeCount
  leaves : a.leafIds = (o.subtrees.filter (·.isLeaf)).map (·.member.id)
  /-- Nodes of a generation show the organizations of a row, in order, and stand as these do. -/
  shown : ∀ d, List.Forall₂ a.Shows (a.generation d) ((o.generations[d]?).getD [])
  rows : ∀ d, (a.generation d).map (fun h => (a.node? h).map (·.entry)) =
    ((o.levels.row? d).getD []).map some
  /-- A node at or below the root is in one generation, and stores its number. -/
  stored : ∀ {h n}, a.Rooted h → a.node? h = some n → ∀ d, h ∈ a.generation d ↔ n.depth = d

theorem Sound.agrees (ha : a.Sound) {r : Nat} {o : Organization} (hr : a.root = some r)
    (ho : a.Shows r o) : a.Agrees o where
  ended := fun _ hfuel => ha.preorderFrom_of_le hfuel
  depth := by rw [ha.depth_eq hr ho, o.length_levels]
  count := by rw [ha.length_preorder hr ho, o.nodeCount_eq]
  total := by rw [ha.length_preorder hr ho, o.nodeCount_levels]
  leaves := ha.leafIds_eq hr ho
  shown := ho.forall₂_generation hr
  rows := ha.map_entry_generation hr ho
  stored := by
    intro h n hrooted hn
    have hstored : ∀ d, h ∈ a.generation d → n.depth = d := by
      intro d hh
      obtain ⟨m, hm, hdepth⟩ := ha.depth_of_mem_generation hh
      obtain rfl : n = m := Option.some.inj (hn.symm.trans hm)
      exact hdepth
    obtain ⟨d, hd⟩ := rooted_iff_mem_generation.mp hrooted
    intro e
    constructor
    · exact hstored e
    · rintro rfl
      rwa [← hstored d hd] at hd

/-- **An arena that has a root measures what its nested tree measures**, whatever calls led to
it. -/
theorem Reached.measures_agree (ha : a.Reached) {r : Nat} (hr : a.root = some r) :
    ∃ o, a.organization? = some o ∧ a.Agrees o := by
  obtain ⟨o, htree, hshows⟩ := ha.sound.exists_organization? hr
  exact ⟨o, htree, ha.sound.agrees hr hshows⟩

theorem measures_agree_replanted :
    ∃ o, (after replanted).organization? = some o ∧ (after replanted).Agrees o ∧
      o.levels.length = 3 ∧ o.nodeCount = 6 ∧
      (o.subtrees.filter (·.isLeaf)).map (·.member.id) = ["g", "f", "a"] := by
  have hroot : (after replanted).root = some 2 := by decide +kernel
  obtain ⟨o, htree, hagrees⟩ := (reached_after replanted).measures_agree hroot
  refine ⟨o, htree, hagrees, ?_, ?_, ?_⟩
  · rw [← hagrees.depth]
    decide +kernel
  · rw [← hagrees.count]
    decide +kernel
  · rw [← hagrees.leaves]
    decide +kernel

end Downline.Arena
