import Downline.Proofs.Record.Nested

/-!
# The flat form of a tree

A list of records is a flat form of a tree if it holds one record for each member and siblings
stand in their order (`Flat`); children may precede their parents and families may be mixed. In a
tree with distinct ids the records below the one of a member are then those of its children
(`Flat.below_eq`), so the list is one rooted tree, and what it unfolds into is the tree that it was
made from (`organization?_of_flat`).
-/

namespace Downline

namespace Organization

/-- The record of the member at the top, on no leg. -/
def record (parentId : Option String) (o : Organization) : Record := ⟨o.member, parentId, none⟩

mutual

/-- One record for each member, with the id of the member above. -/
def records (parentId : Option String) : Organization → List Record
  | node m cs => ⟨m, parentId, none⟩ :: recordsAll (some m.id) cs

def recordsAll (parentId : Option String) : List Organization → List Record
  | [] => []
  | o :: os => o.records parentId ++ recordsAll parentId os

end

theorem recordsAll_eq (parentId : Option String) (os : List Organization) :
    recordsAll parentId os = os.flatMap (records parentId) := by
  induction os with
  | nil => rw [recordsAll, List.flatMap_nil]
  | cons o os ih => rw [recordsAll, ih, List.flatMap_cons]

@[simp] theorem records_node (parentId : Option String) (m : Member) (cs : List Organization) :
    (node m cs).records parentId =
      record parentId (node m cs) :: cs.flatMap (records (some m.id)) := by
  rw [records, recordsAll_eq]
  rfl

theorem map_member_records (parentId : Option String) (o : Organization) :
    (o.records parentId).map Record.member = o.preorder := by
  induction o using ind generalizing parentId with
  | node m cs ih =>
    simp only [records_node, preorder_node, List.map_cons, List.map_flatMap]
    rw [List.flatMap_congr fun c hc => ih c hc (some m.id)]
    rfl

/-- A record of a tree is that of the top, or of a child of some member and carries its id. -/
theorem mem_records {parentId : Option String} {o : Organization} {r : Record}
    (hr : r ∈ o.records parentId) :
    r = o.record parentId ∨
      ∃ s ∈ o.subtrees, ∃ c ∈ s.children, r = c.record (some s.member.id) := by
  induction o using ind generalizing parentId with
  | node m cs ih =>
    rw [records_node, List.mem_cons, List.mem_flatMap] at hr
    rcases hr with rfl | ⟨c, hc, hr⟩
    · exact .inl rfl
    · right
      rcases ih c hc hr with rfl | ⟨s, hs, d, hd, rfl⟩
      · exact ⟨node m cs, self_mem_subtrees _, c, hc, rfl⟩
      · refine ⟨s, ?_, d, hd, rfl⟩
        rw [subtrees_node]
        exact List.mem_cons_of_mem _ (List.mem_flatMap.mpr ⟨c, hc, hs⟩)

end Organization

namespace Record

/-- A list of records is a flat form of a tree. -/
structure Flat (o : Organization) (rs : List Record) : Prop where
  /-- One record for each member, with the id of the member above and on no leg. -/
  perm : rs.Perm (o.records none)
  /-- Siblings stand in their order. -/
  siblings : ∀ s ∈ o.subtrees, (s.children.map (·.record (some s.member.id))).Sublist rs

/-- From the records of a tree parent links lead to the top if they do so from its first one. -/
theorem reachesTop_of_records {rs : List Record} {parentId : Option String} {s : Organization}
    (hs : s.records parentId ⊆ rs) (htop : ReachesTop rs (s.record parentId)) :
    ∀ r ∈ s.records parentId, ReachesTop rs r := by
  induction s using Organization.ind generalizing parentId with
  | node m cs ih =>
    rw [Organization.records_node] at hs ⊢
    intro r hr
    rcases List.mem_cons.mp hr with rfl | hr
    · exact htop
    · obtain ⟨c, hc, hr⟩ := List.mem_flatMap.mp hr
      obtain ⟨hself, hbelow⟩ := List.cons_subset.mp hs
      obtain ⟨links, hclimbs⟩ := htop
      refine ih c hc ?_ ⟨links + 1, .up rfl hself hclimbs⟩ r hr
      exact fun q hq => hbelow (List.mem_flatMap.mpr ⟨c, hc, hq⟩)

namespace Flat

variable {o : Organization} {rs : List Record} (hflat : Flat o rs)

include hflat

theorem map_id_perm : (rs.map id).Perm (o.preorder.map (·.id)) := by
  have hids : (o.records none).map id = o.preorder.map (·.id) := by
    rw [← Organization.map_member_records none, List.map_map]
    rfl
  exact hids ▸ hflat.perm.map id

theorem cases {r : Record} (hr : r ∈ rs) :
    r = o.record none ∨ ∃ s ∈ o.subtrees, ∃ c ∈ s.children, r = c.record (some s.member.id) :=
  Organization.mem_records (hflat.perm.mem_iff.mp hr)

theorem eq_top {r : Record} (hr : r ∈ rs) (hnone : r.parentId = none) : r = o.record none := by
  rcases hflat.cases hr with rfl | ⟨s, -, c, -, rfl⟩
  · rfl
  · cases hnone

theorem top_mem : o.record none ∈ rs := by
  refine hflat.perm.mem_iff.mpr ?_
  cases o
  rw [Organization.records_node]
  exact List.mem_cons_self

section Distinct

variable (hdistinct : (o.preorder.map (·.id)).Nodup)

include hdistinct

theorem nodup_ids : (rs.map id).Nodup := hflat.map_id_perm.nodup_iff.mpr hdistinct

/-- The records below the one of a member are those of its children, in their order. -/
theorem below_eq {s : Organization} (hs : s ∈ o.subtrees) {r : Record} (hr : r.member = s.member) :
    below rs r = s.children.map (·.record (some s.member.id)) := by
  have hid : r.id = s.member.id := by rw [Record.id, hr]
  have hsub : (s.children.map (·.record (some s.member.id))).Sublist
      (rs.filter fun q => q.parentId = some r.id) := by
    have hfilter := (hflat.siblings s hs).filter fun q => q.parentId = some r.id
    rwa [List.filter_eq_self.mpr] at hfilter
    intro q hq
    obtain ⟨c, -, rfl⟩ := List.mem_map.mp hq
    exact decide_eq_true (congrArg some hid.symm)
  have hsubset : rs.filter (fun q => q.parentId = some r.id) ⊆
      s.children.map (·.record (some s.member.id)) := by
    intro q hq
    obtain ⟨hq, hparent⟩ := List.mem_filter.mp hq
    rcases hflat.cases hq with rfl | ⟨t, ht, c, hc, rfl⟩
    · cases of_decide_eq_true hparent
    · -- ids are distinct, so the member above is the one that was asked for
      have htid : t.member.id = s.member.id :=
        (Option.some.inj (of_decide_eq_true hparent)).trans hid
      have hnodup : (o.subtrees.map fun t => t.member.id).Nodup := by
        rwa [← Organization.map_member_subtrees, List.map_map] at hdistinct
      obtain rfl : t = s := List.inj_on_of_nodup_map hnodup ht hs htid
      exact List.mem_map_of_mem hc
  have hnodup : (rs.filter fun q => q.parentId = some r.id).Nodup :=
    ((hflat.nodup_ids hdistinct).of_map id).filter _
  have hfamily := hsub.eq_of_length_le (hnodup.subperm hsubset).length_le
  have hlegs : ∀ q ∈ s.children.map (·.record (some s.member.id)), q.leg = none := by
    intro q hq
    obtain ⟨c, -, rfl⟩ := List.mem_map.mp hq
    rfl
  rw [below, ← hfamily, List.filter_eq_self.mpr, List.filter_eq_nil_iff.mpr, List.append_nil]
  · exact fun q hq => by simp [hlegs q hq]
  · exact fun q hq => by simp [hlegs q hq]

/-- So the record of a member unfolds into the organization of that member. -/
theorem spells {s : Organization} (hs : s ∈ o.subtrees) (parentId : Option String) :
    Spells (below rs) (s.record parentId) s := by
  induction s using Organization.ind generalizing parentId with
  | node m cs ih =>
    refine .node rfl ?_
    rw [hflat.below_eq hdistinct hs rfl, List.forall₂_map_left_iff]
    refine List.forall₂_same.mpr fun c hc => ?_
    exact ih c hc (Organization.mem_subtrees_of_mem_children hs hc) _

theorem oneTree : OneTree rs where
  nonempty := List.ne_nil_of_mem hflat.top_mem
  distinct := clean_repeats_iff.mpr (hflat.nodup_ids hdistinct)
  placed := by
    intro before r hle hmisplaced
    have hmem : ∀ q ∈ before ++ [r], q ∈ rs := fun q hq => hle.subset hq
    have hr := hmem r List.mem_concat_self
    rcases hmisplaced with ⟨hnone, q, hq, hqnone⟩ | ⟨p, hparent, hstray⟩
    · have hsame : q = r := by
        rw [hflat.eq_top hr hnone, hflat.eq_top (hmem q (List.mem_append_left [r] hq)) hqnone]
      have hnodup := ((hflat.nodup_ids hdistinct).of_map id).sublist hle.sublist
      exact List.disjoint_of_nodup_append hnodup hq (hsame ▸ List.mem_singleton_self q)
    · rcases hflat.cases hr with rfl | ⟨s, hs, c, -, rfl⟩
      · cases hparent
      · cases hparent
        refine hstray (hflat.map_id_perm.mem_iff.mpr ?_)
        rw [← Organization.map_member_subtrees]
        exact List.mem_map_of_mem (List.mem_map_of_mem hs)
  rooted := by
    intro r hr
    refine reachesTop_of_records (fun q hq => hflat.perm.mem_iff.mpr hq) ⟨0, .top rfl⟩ r ?_
    exact hflat.perm.mem_iff.mp hr

end Distinct

end Flat

/-- **A tree with distinct ids comes back from any flat form of it**: a build succeeds on the
records and the nested tree of its arena is the tree. -/
theorem organization?_of_flat (b : Builder) {o : Organization} {rs : List Record}
    (hdistinct : (o.preorder.map (·.id)).Nodup) (hflat : Flat o rs) :
    ∃ a, (b.build rs).1 = .ok a ∧ a.organization? = some o := by
  obtain ⟨a, order, ha, hsound, hmirrors⟩ := exists_build_of_oneTree b (hflat.oneTree hdistinct)
  obtain ⟨o', ho', hspells⟩ := hmirrors.exists_organization? hsound hflat.top_mem rfl
  have hself := hflat.spells hdistinct (Organization.self_mem_subtrees o) none
  exact ⟨a, ha, ho'.trans (congrArg some (hspells.unique hself))⟩

/-- Three generations: two members below the top, one of them with two below and one with one. -/
def threeGenerations : Organization :=
  let node (id : String) := Organization.node (bare id none none).member
  node "a" [node "b" [node "d" [], node "e" []], node "c" [node "f" []]]

/-- A flat form with children before their parents and the two lower families mixed. -/
def shuffled : List Record :=
  [bare "d" (some "b") none, bare "f" (some "c") none, bare "b" (some "a") none,
    bare "e" (some "b") none, bare "a" none none, bare "c" (some "a") none]

theorem organization?_of_shuffled :
    (threeGenerations.preorder.map (·.id)).Nodup ∧ Flat threeGenerations shuffled ∧
      ∃ a, (Builder.new.build shuffled).1 = .ok a ∧ a.organization? = some threeGenerations := by
  have hdistinct : (threeGenerations.preorder.map (·.id)).Nodup := by decide +kernel
  have hflat : Flat threeGenerations shuffled := ⟨by decide +kernel, by decide +kernel⟩
  exact ⟨hdistinct, hflat, organization?_of_flat Builder.new hdistinct hflat⟩

end Record

end Downline
