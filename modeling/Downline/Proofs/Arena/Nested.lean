import Downline.Proofs.Arena.Preorder
import Downline.Proofs.Organization.Unfolding

/-!
# The arena as a nested tree

`Shows` says what is at a node and below it, as a tree. The second walk through an arena finishes
that tree: it puts the trees of a node's children on the finished ones, and then the node takes as
many of them as it has children, which are the latest (`Finishes`). So the nested tree of an arena
is what its root shows (`Sound.organization?_eq_some`).
-/

namespace Downline.Arena

/-- What is at a node and below it, as a tree. -/
def Shows (a : Arena) : Nat → Organization → Prop :=
  Unfolds (fun h => (a.node? h).map (·.member)) a.childrenOf

theorem shows_node_iff {a : Arena} {h : Nat} {m : Member} {cs : List Organization} :
    a.Shows h (.node m cs) ↔
      ∃ n, a.node? h = some n ∧ n.member = m ∧ List.Forall₂ a.Shows n.children cs := by
  rw [Shows, unfolds_node_iff]
  constructor
  · rintro ⟨hm, hcs⟩
    obtain ⟨n, hn, rfl⟩ := Option.map_eq_some_iff.mp hm
    exact ⟨n, hn, rfl, childrenOf_eq hn ▸ hcs⟩
  · rintro ⟨n, hn, rfl, hcs⟩
    exact ⟨by rw [hn, Option.map_some], childrenOf_eq hn ▸ hcs⟩

/-- Induction along what is shown, with what is said of one node and what is said of nodes in a
row. -/
theorem Shows.ind {a : Arena} {P : Nat → Organization → Prop}
    {Q : List Nat → List Organization → Prop}
    (node : ∀ h n cs, a.node? h = some n → List.Forall₂ a.Shows n.children cs →
      Q n.children cs → P h (.node n.member cs))
    (nil : Q [] [])
    (cons : ∀ h o hs os, P h o → Q hs os → Q (h :: hs) (o :: os))
    {h : Nat} {o : Organization} (hshows : a.Shows h o) : P h o := by
  refine Unfolds.ind ?_ nil cons hshows
  intro h m cs hm hcs hrow
  obtain ⟨n, hn, rfl⟩ := Option.map_eq_some_iff.mp hm
  rw [childrenOf_eq hn] at hcs hrow
  exact node h n cs hn hcs hrow

/-! ## The second walk -/

/-- The finished subtrees after more nodes of the second walk, latest first. -/
def finishAll? (built : List (Nat × Organization)) (visited : List (Nat × ArenaNode)) :
    Option (List (Nat × Organization)) :=
  visited.foldlM (fun built (h, n) => finish? built h n) built

theorem finishAll?_cons (built : List (Nat × Organization)) (h : Nat) (n : ArenaNode)
    (rest : List (Nat × ArenaNode)) :
    finishAll? built ((h, n) :: rest) = (finish? built h n).bind (finishAll? · rest) := by
  rw [finishAll?, List.foldlM_cons]
  rfl

/-- A node takes as many of the finished subtrees as it has children, in the order in which they
were finished. -/
theorem finish?_append {n : ArenaNode} {kids : List (Nat × Organization)} (h : Nat)
    (hkids : kids.length = n.children.length) (built : List (Nat × Organization)) :
    finish? (kids.reverse ++ built) h n =
      some ((h, .node n.member (kids.map Prod.snd)) :: built) := by
  have hlen : kids.reverse.length = n.children.length := by rw [List.length_reverse, hkids]
  have hle : n.children.length ≤ (kids.reverse ++ built).length := by
    rw [List.length_append, hlen]
    omega
  simp only [finish?, if_pos hle]
  rw [List.take_left' hlen, List.drop_left' hlen, List.reverse_reverse]

/-- A part of the second walk, with the finished subtrees before and after it, latest first. When
the turn of a node comes, the latest ones are what its children show, one for each child. -/
inductive Finishes (a : Arena) :
    List (Nat × Organization) → List (Nat × ArenaNode) → List (Nat × Organization) → Prop
  | nil {built : List (Nat × Organization)} : Finishes a built [] built
  | cons {h : Nat} {n : ArenaNode} {rest : List (Nat × ArenaNode)}
      {kids built built' : List (Nat × Organization)} :
      kids.map Prod.fst = n.children → (∀ e ∈ kids, a.Shows e.1 e.2) →
      Finishes a ((h, .node n.member (kids.map Prod.snd)) :: built) rest built' →
      Finishes a (kids.reverse ++ built) ((h, n) :: rest) built'

namespace Finishes

variable {a : Arena} {built built' built'' : List (Nat × Organization)}
  {visited visited' : List (Nat × ArenaNode)}

theorem append (h : a.Finishes built visited built') (h' : a.Finishes built' visited' built'') :
    a.Finishes built (visited ++ visited') built'' := by
  induction h with
  | nil => exact h'
  | cons hkids hshow _ ih => exact .cons hkids hshow (ih h')

theorem finishAll?_eq (h : a.Finishes built visited built') :
    finishAll? built visited = some built' := by
  induction h with
  | nil => rfl
  | cons hkids _ _ ih =>
    have hlen := congrArg List.length hkids
    rw [List.length_map] at hlen
    rw [finishAll?_cons, finish?_append _ hlen, Option.bind_some, ih]

/-- So the subtrees that a node takes are there when its turn comes. -/
theorem exists_kids {before later : List (Nat × ArenaNode)} {k : Nat} {n : ArenaNode}
    (h : a.Finishes built (before ++ (k, n) :: later) built') :
    ∃ (kids rest : List (Nat × Organization)),
      finishAll? built before = some (kids.reverse ++ rest) ∧
        kids.map Prod.fst = n.children ∧ ∀ e ∈ kids, a.Shows e.1 e.2 := by
  generalize hvisited : before ++ (k, n) :: later = visited at h
  induction h generalizing before with
  | nil => simp at hvisited
  | @cons _ m _ kids built _ hkids hshow _ ih =>
    cases before with
    | nil =>
      cases hvisited
      exact ⟨kids, built, rfl, hkids, hshow⟩
    | cons e before =>
      cases hvisited
      have hlen := congrArg List.length hkids
      rw [List.length_map] at hlen
      rw [finishAll?_cons, finish?_append _ hlen, Option.bind_some]
      exact ih rfl

end Finishes

/-- Two steps for each member of what a node shows finish that tree. -/
theorem Shows.exists_postorderFrom {a : Arena} {h : Nat} {o : Organization}
    (hshows : a.Shows h o) :
    ∃ visited, (∀ built, a.Finishes built visited ((h, o) :: built)) ∧
      Walk.Passes a.postorderFrom (2 * o.size) [(h, false)] visited := by
  refine hshows.ind
    (P := fun h o => ∃ visited, (∀ built, a.Finishes built visited ((h, o) :: built)) ∧
      Walk.Passes a.postorderFrom (2 * o.size) [(h, false)] visited)
    (Q := fun hs os => ∃ visited,
      (∀ built, a.Finishes built visited ((hs.zip os).reverse ++ built)) ∧
      Walk.Passes a.postorderFrom (2 * Organization.sizeAll os) (hs.map (·, false)) visited)
    ?_ ?_ ?_
  · rintro h n cs hn hcs ⟨below, hbelow, hwalk⟩
    refine ⟨below ++ [(h, n)], fun built => (hbelow built).append ?_, fun fuel rest => ?_⟩
    · have hfirst : (n.children.zip cs).map Prod.fst = n.children :=
        List.map_fst_zip (Nat.le_of_eq hcs.length_eq)
      have hsecond : (n.children.zip cs).map Prod.snd = cs :=
        List.map_snd_zip (Nat.le_of_eq hcs.length_eq.symm)
      have hnode : a.Finishes ((h, .node n.member ((n.children.zip cs).map Prod.snd)) :: built) []
          ((h, .node n.member cs) :: built) := by
        rw [hsecond]
        exact .nil
      exact .cons hfirst (fun e he => (List.forall₂_iff_zip.mp hcs).2 he) hnode
    · -- the first step puts the children in front, the last one comes back to the node
      have hsteps : 2 * (Organization.node n.member cs).size + fuel =
          2 * Organization.sizeAll cs + (fuel + 1) + 1 := by
        rw [Organization.size_node]
        omega
      have hlast : a.postorderFrom (fuel + 1) ((h, true) :: rest) =
          (h, n) :: a.postorderFrom fuel rest := by
        simp only [postorderFrom, hn, if_true]
      rw [hsteps, List.append_assoc, List.singleton_append, List.singleton_append, ← hlast,
        ← hwalk]
      simp only [postorderFrom, hn, Bool.false_eq_true, if_false]
  · exact ⟨[], fun _ => .nil, .nil⟩
  · rintro h o hs os ⟨first, hfirst, hwalk⟩ ⟨others, hothers, hwalks⟩
    refine ⟨first ++ others, fun built => ?_, ?_⟩
    · rw [List.zip_cons_cons, List.reverse_cons, List.append_assoc]
      exact (hfirst built).append (hothers _)
    · rw [Organization.sizeAll_cons, Nat.mul_add]
      exact hwalk.append hwalks

theorem postorderFrom_nil (a : Arena) (fuel : Nat) : a.postorderFrom fuel [] = [] := by
  cases fuel <;> rfl

namespace Sound

variable {a : Arena} (ha : a.Sound)

include ha

theorem size_le_of_shows {r : Nat} {o : Organization} (hr : a.root = some r) (ho : a.Shows r o) :
    o.size ≤ a.size := by
  have hle := ho.size_le ha.forest (ha.root_not_child hr) (List.range a.size)
    (List.mem_range.mpr (ha.root_lt_size hr))
    (fun _ _ _ hc => List.mem_range.mpr (ha.child_lt_size hc))
  rwa [List.length_range] at hle

/-- The second walk is over in twice as many steps as there are nodes, and finishes what the root
shows. -/
theorem finishes_postorder {r : Nat} {o : Organization} (hr : a.root = some r)
    (ho : a.Shows r o) :
    a.Finishes [] a.postorder [(r, o)] ∧ ∀ fuel, 2 * a.size ≤ fuel →
      a.postorderFrom fuel (a.root.toList.map (·, false)) = a.postorder := by
  obtain ⟨visited, hvisited, hwalk⟩ := ho.exists_postorderFrom
  have hsize := ha.size_le_of_shows hr ho
  have hends : ∀ fuel, 2 * a.size ≤ fuel →
      a.postorderFrom fuel (a.root.toList.map (·, false)) = visited := by
    intro fuel hfuel
    rw [hr]
    exact hwalk.eq_of_le a.postorderFrom_nil (by omega)
  have hpostorder : a.postorder = visited := hends _ (Nat.le_refl _)
  rw [hpostorder]
  exact ⟨hvisited [], hends⟩

/-- **The nested tree of an arena is what its root shows.** -/
theorem organization?_eq_some {r : Nat} {o : Organization} (hr : a.root = some r)
    (ho : a.Shows r o) : a.organization? = some o := by
  have hfinished : a.finished? = some [(r, o)] := (ha.finishes_postorder hr ho).1.finishAll?_eq
  simp [organization?, hr, hfinished]

/-- Children come later than the node that lists them, unless it named itself as its parent. So
any other node shows a tree. -/
theorem exists_shows {h : Nat} {n : ArenaNode} (hn : a.node? h = some n)
    (hself : n.link ≠ .adrift h) : ∃ o, a.Shows h o := by
  refine exists_unfolds (P := fun h => ∃ n, a.node? h = some n ∧ n.link ≠ .adrift h)
    (a.size - ·) ?_ ⟨n, hn, hself⟩
  rintro h ⟨n, hn, hself⟩
  refine ⟨⟨n.member, by rw [hn, Option.map_some]⟩, fun c hc => ?_⟩
  rw [childrenOf_eq hn] at hc
  obtain ⟨m, hm, hlink | ⟨rfl, hlink⟩⟩ := ha.linked hn hc
  · refine ⟨⟨m, hm, by rw [hlink]; nofun⟩, ?_⟩
    have hlater := (ha.listed hm hlink).1
    have hlt := lt_size_of_node? hm
    omega
  · obtain rfl : n = m := Option.some.inj (hn.symm.trans hm)
    exact absurd hlink hself

theorem exists_shows_root {r : Nat} (hr : a.root = some r) : ∃ o, a.Shows r o := by
  obtain ⟨n, hn, htop⟩ := ha.root_top hr
  exact ha.exists_shows hn (by rw [htop]; nofun)

theorem exists_shows_of_rooted {h : Nat} (hh : a.Rooted h) : ∃ o, a.Shows h o := by
  obtain ⟨r, hr, hbelow⟩ := hh
  induction hbelow with
  | refl => exact ha.exists_shows_root hr
  | tail _ hc ih =>
    obtain ⟨o, ho⟩ := ih
    obtain ⟨c, hshows, -⟩ := ho.exists_of_mem_next hc
    exact ⟨c, hshows⟩

theorem exists_organization? {r : Nat} (hr : a.root = some r) :
    ∃ o, a.organization? = some o ∧ a.Shows r o := by
  obtain ⟨o, ho⟩ := ha.exists_shows_root hr
  exact ⟨o, ha.organization?_eq_some hr ho, ho⟩

theorem organization?_eq_some_iff {o : Organization} :
    a.organization? = some o ↔ ∃ r, a.root = some r ∧ a.Shows r o := by
  constructor
  · intro h
    cases hr : a.root with
    | none => simp [organization?, hr] at h
    | some r =>
      obtain ⟨o', ho', hshows⟩ := ha.exists_organization? hr
      obtain rfl : o = o' := Option.some.inj (h.symm.trans ho')
      exact ⟨r, rfl, hshows⟩
  · rintro ⟨r, hr, hshows⟩
    exact ha.organization?_eq_some hr hshows

theorem organization?_eq_none_iff : a.organization? = none ↔ a.root = none := by
  constructor
  · intro h
    rw [Option.eq_none_iff_forall_ne_some]
    intro r hr
    obtain ⟨o, ho, -⟩ := ha.exists_organization? hr
    cases h.symm.trans ho
  · intro hr
    simp [organization?, hr]

/-- So twice as many steps as there are nodes are enough for the second walk, with a root or
without. -/
theorem exists_finishes :
    ∃ built, a.Finishes [] a.postorder built ∧ ∀ fuel, 2 * a.size ≤ fuel →
      a.postorderFrom fuel (a.root.toList.map (·, false)) = a.postorder := by
  rcases Option.eq_none_or_eq_some a.root with hr | ⟨r, hr⟩
  · have hnothing (fuel : Nat) : a.postorderFrom fuel (a.root.toList.map (·, false)) = [] := by
      rw [hr, Option.toList_none, List.map_nil, postorderFrom_nil]
    refine ⟨[], ?_, fun fuel _ => ?_⟩
    · rw [postorder, hnothing]
      exact .nil
    · rw [postorder, hnothing, hnothing]
  · obtain ⟨o, ho⟩ := ha.exists_shows_root hr
    exact ⟨_, ha.finishes_postorder hr ho⟩

end Sound

end Downline.Arena
