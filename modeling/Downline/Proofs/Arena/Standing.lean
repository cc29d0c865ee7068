import Downline.Proofs.Arena.Nested
import Downline.Proofs.Organization.Standing

/-!
# Measures of an arena and of its nested tree

The nodes of an arena carry their depths, and a nested tree has none. Still both say the same of
where a member stands: the first walk through an arena meets the members as they stand in the
nested tree (`Sound.entries_preorder`), depths and numbers of children included. So what an arena
measures on its walk is what the rows of the nested tree measure (`Sound.depth_eq`,
`Sound.length_preorder`).
-/

namespace Downline

/-- Where the member of a node stands, as the node says. -/
def ArenaNode.entry (n : ArenaNode) : LevelEntry := ⟨n.member, n.depth, n.children.length⟩

namespace Arena

theorem Shows.entry_eq {a : Arena} {h : Nat} {n : ArenaNode} {o : Organization} (ho : a.Shows h o)
    (hn : a.node? h = some n) : n.entry = .ofNode o n.depth := by
  obtain ⟨m, cs⟩ := o
  obtain ⟨n', hn', rfl, hcs⟩ := shows_node_iff.mp ho
  obtain rfl : n = n' := Option.some.inj (hn.symm.trans hn')
  rw [ArenaNode.entry, hcs.length_eq]
  rfl

variable {a : Arena} (ha : a.Sound)

include ha

/-- The children of a node that shows a tree are one deeper than the node. -/
theorem Sound.depth_of_mem_children {h c : Nat} {n : ArenaNode} {o : Organization}
    (ho : a.Shows h o) (hn : a.node? h = some n) (hc : c ∈ n.children) :
    ∃ m, a.node? c = some m ∧ m.depth = n.depth + 1 := by
  obtain ⟨m, hm, hlink | ⟨rfl, -⟩⟩ := ha.linked hn hc
  · obtain ⟨-, n', hn', -, hdepth⟩ := ha.listed hm hlink
    obtain rfl : n = n' := Option.some.inj (hn.symm.trans hn')
    exact ⟨m, hm, hdepth⟩
  · -- a node that lists itself would show a tree that is smaller than itself
    obtain ⟨o', ho', hlt⟩ := ho.exists_of_mem_next (childrenOf_eq hn ▸ hc)
    exact absurd hlt (ho.unique ho' ▸ Nat.lt_irrefl _)

/-- As many steps as a node shows members meet these members as they stand in the tree. -/
theorem Sound.exists_preorderFrom {h : Nat} {n : ArenaNode} {o : Organization}
    (ho : a.Shows h o) (hn : a.node? h = some n) :
    ∃ visited, visited.map (·.2.entry) = o.entriesFrom n.depth ∧
      Walk.Passes a.preorderFrom o.size [h] visited := by
  -- nodes in a row are met as they stand if they are all equally deep
  refine ho.ind
    (P := fun h o => ∀ n, a.node? h = some n → ∃ visited,
      visited.map (·.2.entry) = o.entriesFrom n.depth ∧
      Walk.Passes a.preorderFrom o.size [h] visited)
    (Q := fun hs os => ∀ d, (∀ k ∈ hs, ∃ p, a.node? k = some p ∧ p.depth = d) → ∃ visited,
      visited.map (·.2.entry) = os.flatMap (Organization.entriesFrom d) ∧
      Walk.Passes a.preorderFrom (Organization.sizeAll os) hs visited) ?_ ?_ ?_ n hn
  · intro h n cs hn hcs hrow n' hn'
    obtain rfl : n = n' := Option.some.inj (hn.symm.trans hn')
    have ho : a.Shows h (.node n.member cs) := shows_node_iff.mpr ⟨n, hn, rfl, hcs⟩
    obtain ⟨below, hbelow, hwalk⟩ :=
      hrow (n.depth + 1) fun c hc => ha.depth_of_mem_children ho hn hc
    refine ⟨(h, n) :: below, ?_, fun fuel rest => ?_⟩
    · rw [List.map_cons, hbelow, ho.entry_eq hn, Organization.entriesFrom_eq,
        Organization.children_node]
    · rw [Organization.size_node, Nat.add_right_comm, List.singleton_append]
      simp only [preorderFrom, hn, hwalk _ _, List.cons_append]
  · exact fun _ _ => ⟨[], rfl, .nil⟩
  · intro k c hs os hfront hrow d hdepths
    obtain ⟨p, hp, rfl⟩ := hdepths k List.mem_cons_self
    obtain ⟨first, hfirst, hwalk⟩ := hfront p hp
    obtain ⟨others, hothers, hwalks⟩ :=
      hrow p.depth fun j hj => hdepths j (List.mem_cons_of_mem k hj)
    exact ⟨first ++ others, by rw [List.map_append, hfirst, hothers, List.flatMap_cons],
      hwalk.append hwalks⟩

section Root

variable {r : Nat} {o : Organization} (hr : a.root = some r) (ho : a.Shows r o)

include hr ho

/-- **The first walk meets the members as they stand in the nested tree.** -/
theorem Sound.entries_preorder : a.preorder.map (·.2.entry) = o.entriesFrom 0 := by
  obtain ⟨n, hn, htop⟩ := ha.root_top hr
  obtain ⟨visited, hvisited, hwalk⟩ := ha.exists_preorderFrom ho hn
  have hpreorder : a.preorder = visited := by
    rw [preorder, hr]
    exact hwalk.eq_of_le a.preorderFrom_nil (ha.size_le_of_shows hr ho)
  rw [hpreorder, hvisited, ha.depth_zero hn (by rw [htop]; nofun)]

theorem Sound.length_preorder : a.preorder.length = o.size := by
  rw [← o.length_entriesFrom 0, ← ha.entries_preorder hr ho, List.length_map]

/-- An arena is as deep as its nested tree is high. -/
theorem Sound.depth_eq : a.depth = o.height := by
  have hdepths : a.preorder.map (fun e => e.2.depth + 1) =
      (o.entriesFrom 0).map (·.depth + 1) := by
    rw [← ha.entries_preorder hr ho, List.map_map]
    rfl
  have hdepth : a.depth = ((o.entriesFrom 0).map (·.depth + 1)).foldl max 0 :=
    congrArg (List.foldl max 0) hdepths
  have hmax : (0 :: (o.entriesFrom 0).map (·.depth + 1)).max? = some o.height := by
    refine List.max?_eq_some_iff.mpr ⟨?_, fun d hd => ?_⟩
    · obtain ⟨e, he, hdeepest⟩ := o.exists_depth
      exact List.mem_cons_of_mem _ (List.mem_map.mpr ⟨e, he, hdeepest⟩)
    · rcases List.mem_cons.mp hd with rfl | hd
      · exact Nat.zero_le _
      · obtain ⟨e, he, rfl⟩ := List.mem_map.mp hd
        exact Organization.depth_lt_height he
  rw [List.max?_cons'] at hmax
  exact hdepth.trans (Option.some.inj hmax)

end Root

end Arena

end Downline
