import Downline.Proofs.Arena.Runs
import Downline.Proofs.Record.Nested

/-!
# One more record

A member that was placed can be written down: one more record at the end, with the parent and the
leg of the placement. The records are one rooted tree again (`OneTree.concat`). In the arena the
new member comes after all children of its parent (`Mirrors.follows_insert`); a build lays it out
before those on the right leg, unless it is on that leg itself (`exists_below_concat`). So the
arena and the one that is built again show the same tree if both places are the same, and for a
placement in a unilevel tree only then (`organization?_rebuilt`). That theorem leaves out a member
on the left leg beside a right one that is already taken. A build lays left before right, so the
trees then differ, which `Mirrors.exists_rebuilt` decides for an insertion on any leg.
-/

namespace Downline.Record

/-! ## The records with one more -/

theorem OneTree.concat {rs : List Record} (h : OneTree rs) {new q : Record} (hq : q ∈ rs)
    (hparent : new.parentId = some q.id) (hnew : new.id ∉ rs.map id) : OneTree (rs ++ [new]) where
  nonempty := List.concat_ne_nil new rs
  distinct := clean_concat_iff.mpr ⟨h.distinct, hnew⟩
  placed := by
    rw [List.map_append, clean_concat_iff]
    constructor
    · intro before r hle hmisplaced
      refine h.placed before r hle (hmisplaced.imp_right ?_)
      rintro ⟨p, hp, hstray⟩
      exact ⟨p, hp, fun hmem => hstray (List.mem_append_left _ hmem)⟩
    · rintro (⟨hnone, -⟩ | ⟨p, hp, hstray⟩)
      · cases hnone.symm.trans hparent
      · obtain rfl : q.id = p := Option.some.inj (hparent.symm.trans hp)
        exact hstray (List.mem_append_left _ (List.mem_map_of_mem hq))
  rooted := by
    have hsub : rs ⊆ rs ++ [new] := List.subset_append_left rs [new]
    have hold : ∀ r ∈ rs, ReachesTop (rs ++ [new]) r := fun r hr =>
      (h.rooted r hr).imp fun _ hclimbs => hclimbs.mono hsub
    intro r hr
    rcases List.mem_append.mp hr with hr | hr
    · exact hold r hr
    · obtain rfl := List.mem_singleton.mp hr
      obtain ⟨links, hclimbs⟩ := hold q hq
      exact ⟨links + 1, .up hparent (hsub hq) hclimbs⟩

/-! ## Its place among its family -/

/-- No record below the one with this id is on the right leg. -/
def RightFree (rs : List Record) (id : String) : Prop :=
  ∀ q ∈ rs, q.parentId = some id → q.leg ≠ some .right

instance (rs : List Record) (id : String) : Decidable (RightFree rs id) :=
  inferInstanceAs (Decidable (∀ q ∈ rs, q.parentId = some id → q.leg ≠ some .right))

/-- The records below a record, and the new one after all of them if it names that record. -/
def belowLast (rs : List Record) (new r : Record) : List Record :=
  if new.parentId = some r.id then below rs r ++ [new] else below rs r

section Family

variable {rs : List Record} {new r : Record}

theorem below_concat_of_ne (hparent : new.parentId ≠ some r.id) :
    below (rs ++ [new]) r = belowLast rs new r := by
  simp [below, belowLast, hparent]

theorem below_concat_of_right (hleg : new.leg = some .right) :
    below (rs ++ [new]) r = belowLast rs new r := by
  by_cases hparent : new.parentId = some r.id
  · simp [below, belowLast, hparent, hleg]
  · exact below_concat_of_ne hparent

theorem below_subset_belowLast : below rs r ⊆ belowLast rs new r := by
  unfold belowLast
  split
  · exact List.subset_append_left ..
  · exact List.Subset.refl _

theorem belowLast_subset : belowLast rs new r ⊆ rs ++ [new] := by
  have hsub : below rs r ⊆ rs ++ [new] := fun q hq =>
    List.mem_append_left [new] (mem_below_iff.mp hq).1
  unfold belowLast
  split
  · exact List.append_subset.mpr ⟨hsub, List.subset_append_right rs [new]⟩
  · exact hsub

/-- A build lays a new record on another leg out before those on the right one. -/
theorem exists_below_concat (rs : List Record) (hparent : new.parentId = some r.id)
    (hleg : new.leg ≠ some .right) :
    ∃ early late, below rs r = early ++ late ∧ below (rs ++ [new]) r = early ++ new :: late ∧
      ∀ q, q ∈ late ↔ q ∈ rs ∧ q.parentId = some r.id ∧ q.leg = some .right := by
  refine ⟨_, _, rfl, ?_, fun q => ?_⟩
  · simp [below, hparent, hleg]
  · simp only [List.mem_filter, decide_eq_true_eq, and_assoc]

/-- So it comes last if none is on the right leg, and only then. -/
theorem below_concat_iff (hparent : new.parentId = some r.id) (hleg : new.leg ≠ some .right)
    (hnew : new ∉ rs) : below (rs ++ [new]) r = belowLast rs new r ↔ RightFree rs r.id := by
  obtain ⟨early, late, hbelow, hconcat, hlate⟩ := exists_below_concat rs hparent hleg
  rw [belowLast, if_pos hparent, hbelow, hconcat, List.append_assoc, List.append_cancel_left_eq]
  constructor
  · intro hsame q hq hqparent hqleg
    have hmem : q ∈ late := (hlate q).mpr ⟨hq, hqparent, hqleg⟩
    obtain ⟨first, rest, rfl⟩ := List.exists_cons_of_ne_nil (List.ne_nil_of_mem hmem)
    obtain rfl : new = first := (List.cons.inj hsame).1
    exact hnew ((hlate new).mp List.mem_cons_self).1
  · intro hfree
    have hnil : late = [] := List.eq_nil_iff_forall_not_mem.mpr fun q hq =>
      hfree q ((hlate q).mp hq).1 ((hlate q).mp hq).2.1 ((hlate q).mp hq).2.2
    rw [hnil, List.nil_append]

/-- The new record comes after its whole family if it is on the right leg or none of them is. -/
theorem below_concat_eq {id : String} (hparent : new.parentId = some id) (hnew : new ∉ rs)
    (hlast : new.leg = some .right ∨ RightFree rs id) :
    below (rs ++ [new]) = belowLast rs new := by
  funext r
  by_cases hleg : new.leg = some .right
  · exact below_concat_of_right hleg
  by_cases hr : new.parentId = some r.id
  · obtain rfl : id = r.id := Option.some.inj (hparent.symm.trans hr)
    exact (below_concat_iff hr hleg hnew).mpr (hlast.resolve_left hleg)
  · exact below_concat_of_ne hr

end Family

/-! ## The arena with the new member -/

/-- Handles name the same records in a list that has one more. -/
theorem map_getElem?_concat {order records : List Record} {handles : List Nat}
    (h : handles.map (order[·]?) = records.map some) (new : Record) :
    handles.map ((order ++ [new])[·]?) = records.map some := by
  rw [← h]
  refine List.map_congr_left fun c hc => List.getElem?_append_left ?_
  have hlisted : order[c]? ∈ records.map some := h ▸ List.mem_map_of_mem hc
  obtain ⟨d, -, hd⟩ := List.mem_map.mp hlisted
  exact (List.getElem?_eq_some_iff.mp hd.symm).1

section Placed

variable {rs order : List Record} {a : Arena} {new q : Record} {p : Nat}
  (htree : OneTree rs) (hm : Mirrors rs order a) (hq : order[p]? = some q)
  (hparent : new.parentId = some q.id) (hnew : new.id ∉ rs.map id)

include htree hm hq hparent hnew

/-- After an insertion the parent lists the new member last, and other nodes list what they listed
before. -/
theorem Mirrors.follows_insert :
    Follows (belowLast rs new) (order ++ [new]) (a.insert new.member (some p) new.leg).1 := by
  have hids : (order.map id).Nodup := (hm.perm.map id).nodup_iff.mpr hm.distinct
  intro h r hr
  rcases getElem?_append_singleton_eq_some.mp hr with hr | ⟨rfl, rfl⟩
  · obtain ⟨n, hn, hfits⟩ := hm.node hr
    refine ⟨_, Arena.node?_insert new.member (some p) new.leg hn, ?_, ?_⟩
    · rw [Arena.member_adopting, hfits.member]
    have hsame := map_getElem?_concat hfits.children new
    by_cases hp : p = h
    · subst hp
      obtain rfl : q = r := Option.some.inj (hq.symm.trans hr)
      rw [Arena.adopting_self, List.map_append, hsame, hm.size, List.map_singleton,
        List.getElem?_concat_length, belowLast, if_pos hparent, List.map_append, List.map_singleton]
    · have hother : new.parentId ≠ some r.id := fun hsome =>
        hp (place_unique hids hq hr (Option.some.inj (hparent.symm.trans hsome)))
      rw [Arena.adopting_of_ne a (hp ∘ Option.some.inj), id_eq, hsame, belowLast, if_neg hother]
  · obtain ⟨above, habove, -⟩ := hm.node hq
    refine ⟨_, hm.size ▸ Arena.node?_insert_new a new.member (some p) new.leg, ?_, ?_⟩
    · rw [Arena.member_newcomer]
    · have hself : new.parentId ≠ some new.id := by
        intro hsome
        obtain hid : q.id = new.id := Option.some.inj (hparent.symm.trans hsome)
        exact hnew (hid ▸ List.mem_map_of_mem (hm.perm.mem_iff.mp (List.mem_of_getElem? hq)))
      have hnone : below rs new = [] := by
        refine List.eq_nil_iff_forall_not_mem.mpr fun d hd => ?_
        obtain ⟨hmem, hsome⟩ := mem_below_iff.mp hd
        exact hnew (htree.parent_mem hmem hsome)
      rw [Arena.newcomer_below new.member new.leg habove, belowLast, if_neg hself, hnone]
      rfl

/-- The root stays where it was, so the nested tree is what the top unfolds into, with the new
record last below its parent. -/
theorem Mirrors.exists_organization?_insert (ha : a.Sound) {top : Record} (htop : top ∈ rs)
    (hnone : top.parentId = none) :
    ∃ o, (a.insert new.member (some p) new.leg).1.organization? = some o ∧
      Spells (belowLast rs new) top o := by
  obtain ⟨h, hroot, hh⟩ := hm.root htop hnone
  refine (hm.follows_insert htree hq hparent hnew).exists_organization?
    (ha.insert new.member (some p) new.leg) ?_
    (getElem?_append_singleton_eq_some.mpr (.inl hh))
  rw [Arena.root_insert, if_neg nofun, hroot]

end Placed

section Agree

variable {rs : List Record} {new top : Record} (hdistinct : ((rs ++ [new]).map id).Nodup)

include hdistinct

/-- A record that unfolds into one tree both ways has the same records below it both ways, and
these unfold into the same trees again. -/
theorem Spells.below_concat_eq {r : Record} {o : Organization}
    (hlast : Spells (belowLast rs new) r o) (hbuilt : Spells (below (rs ++ [new])) r o) :
    belowLast rs new r = below (rs ++ [new]) r ∧ ∀ q ∈ belowLast rs new r,
      ∃ c, Spells (belowLast rs new) q c ∧ Spells (below (rs ++ [new])) q c := by
  refine Unfolds.next_eq hlast hbuilt fun q hq d hd hmember => ?_
  have hid : q.id = d.id := congrArg Member.id (Option.some.inj hmember)
  exact List.inj_on_of_nodup_map hdistinct (belowLast_subset hq) (mem_below_iff.mp hd).1 hid

/-- So if the top does, then so do all records that are below it. -/
theorem below_concat_eq_of_climbs {o : Organization} (htop : ∀ r ∈ rs, r.parentId = none → r = top)
    (hlast : Spells (belowLast rs new) top o) (hbuilt : Spells (below (rs ++ [new])) top o)
    {r : Record} {links : Nat} (hr : r ∈ rs) (hclimbs : Climbs rs r links) :
    belowLast rs new r = below (rs ++ [new]) r := by
  suffices hboth : ∃ c, Spells (belowLast rs new) r c ∧ Spells (below (rs ++ [new])) r c by
    obtain ⟨c, hlast, hbuilt⟩ := hboth
    exact (hlast.below_concat_eq hdistinct hbuilt).1
  induction hclimbs with
  | top hnone => exact htop _ hr hnone ▸ ⟨o, hlast, hbuilt⟩
  | @up r q links hparent hmem _ ih =>
    obtain ⟨c, hlast, hbuilt⟩ := ih hmem
    refine (hlast.below_concat_eq hdistinct hbuilt).2 r ?_
    exact below_subset_belowLast (mem_below_iff.mpr ⟨hr, hparent⟩)

end Agree

/-! ## Placing and building again -/

/-- An insertion below the record `q` shows the tree of a build from one more record, if the new one
comes after its family in that build too, and only then. -/
theorem Mirrors.exists_rebuilt (b : Builder) {rs order : List Record} {a : Arena} {i p : Nat}
    {new q : Record} (htree : OneTree rs) (htop : Top rs i) (hm : Mirrors rs order a)
    (ha : a.Sound) (hq : order[p]? = some q) (hparent : new.parentId = some q.id)
    (hnew : new.id ∉ rs.map id) :
    ∃ rebuilt o o', (b.build (rs ++ [new])).1 = .ok rebuilt ∧
      (a.insert new.member (some p) new.leg).1.organization? = some o ∧
      rebuilt.organization? = some o' ∧
      (o = o' ↔ new.leg = some .right ∨ RightFree rs q.id) := by
  have hmem : q ∈ rs := hm.perm.mem_iff.mp (List.mem_of_getElem? hq)
  have hfresh : new ∉ rs := fun h => hnew (List.mem_map_of_mem h)
  obtain ⟨top, hi, hnone⟩ := htop.parentless
  have htopmem := List.mem_of_getElem? hi
  obtain ⟨rebuilt, order', hbuild, hsound, hm'⟩ :=
    exists_build_of_oneTree b (htree.concat hmem hparent hnew)
  obtain ⟨o, ho, hlast⟩ := hm.exists_organization?_insert htree hq hparent hnew ha htopmem hnone
  obtain ⟨o', ho', hbuilt⟩ :=
    hm'.exists_organization? hsound (List.mem_append_left [new] htopmem) hnone
  refine ⟨rebuilt, o, o', hbuild, ho, ho', ?_, fun hend => ?_⟩
  · rintro rfl
    obtain ⟨links, hclimbs⟩ := htree.rooted q hmem
    have hsame := below_concat_eq_of_climbs hm'.distinct (htop.eq_of_parentless hi) hlast hbuilt
      hmem hclimbs
    by_cases hleg : new.leg = some .right
    · exact .inl hleg
    · exact .inr ((below_concat_iff hparent hleg hfresh).mp hsame.symm)
  · rw [below_concat_eq hparent hfresh hend] at hbuilt
    exact hlast.unique hbuilt

/-- **A placement agrees with a build from one more record**, if the new member is on the right leg
or no other below its parent is. For a placement in a unilevel tree, which is on no leg, the trees
are the same only then. -/
theorem organization?_rebuilt (b b' : Builder) {rs : List Record} {a a' : Arena}
    {sponsorId : String} {member : Member} {shape : TreeType} {placement : Placement}
    (hbuild : (b.build rs).1 = .ok a)
    (hplace : a.place sponsorId member shape = (.ok placement, a')) :
    ∃ rebuilt o o',
      (b'.build (rs ++ [⟨member, some placement.parentId, placement.leg⟩])).1 = .ok rebuilt ∧
      a'.organization? = some o ∧ rebuilt.organization? = some o' ∧
      (placement.leg = some .right ∨ RightFree rs placement.parentId → o = o') ∧
      (shape = .unilevel → (o = o' ↔ RightFree rs placement.parentId)) := by
  have htree := oneTree_of_build_eq_ok b hbuild
  obtain ⟨i, htop, hg⟩ := growing_of_build_eq_ok b hbuild
  obtain ⟨order, hm⟩ := hg.exists_mirrors htop htree
  obtain ⟨hwhole, hids⟩ := Arena.whole_of_build b hbuild
  rcases a.place_eq sponsorId member shape with
    ⟨_, hrefused⟩ | ⟨sponsor, p, leg, above, hfind, -, hseat, habove, hplaced⟩
  · cases hplace.symm.trans hrefused
  cases hplace.symm.trans hplaced
  -- the node above is that of a record, which the new one names
  obtain ⟨q, hq⟩ : ∃ q, order[p]? = some q :=
    ⟨_, List.getElem?_eq_getElem (hm.size ▸ Arena.lt_size_of_node? habove)⟩
  obtain ⟨n, hn, hfits⟩ := hm.node hq
  obtain rfl : above = n := Option.some.inj (habove.symm.trans hn)
  have hid : above.member.id = q.id := congrArg Member.id hfits.member
  have hnew : member.id ∉ rs.map id := fun hmem =>
    hwhole.not_mem_ids_of_find? hfind (hids.mem_iff.mpr hmem)
  let new : Record := ⟨member, some above.member.id, leg⟩
  have hparent : new.parentId = some q.id := congrArg some hid
  obtain ⟨rebuilt, o, o', hrebuilt, ho, ho', hsame⟩ :=
    hm.exists_rebuilt b' htree htop hwhole.toSound hq hparent hnew
  rw [← hid] at hsame
  refine ⟨rebuilt, o, o', hrebuilt, ho, ho', hsame.mpr, ?_⟩
  rintro rfl
  cases hseat
  exact hsame.trans (or_iff_right nofun)

/-- A member that is placed beside two others, one on no leg and one on the left: last among them in
a unilevel tree, on the right leg in a binary one. -/
theorem organization?_rebuilt_mixed :
    ∃ a, (Builder.new.build mixed).1 = .ok a ∧
      ((mixed.filter (·.parentId = some "b")).map fun r => (r.id, r.leg)) =
        [("d", none), ("e", some .left)] ∧
      ∀ shape : TreeType, ∃ a' placement rebuilt o,
        a.place "b" (bare "f" none none).member shape = (.ok placement, a') ∧
        placement.parentId = "b" ∧
        placement.leg = (match shape with | .unilevel => none | .binary => some .right) ∧
        (Builder.new.build (mixed ++ [bare "f" (some placement.parentId) placement.leg])).1 =
          .ok rebuilt ∧
        a'.organization? = some o ∧ rebuilt.organization? = some o := by
  obtain ⟨a, hbuild, hplaces⟩ : ∃ a, (Builder.new.build mixed).1 = .ok a ∧
      ∀ shape : TreeType, ∃ a' placement,
        a.place "b" (bare "f" none none).member shape = (.ok placement, a') ∧
        placement.parentId = "b" ∧
        placement.leg = (match shape with | .unilevel => none | .binary => some .right) :=
    ⟨_, rfl, fun shape => by cases shape <;> exact ⟨_, _, rfl, rfl, rfl⟩⟩
  refine ⟨a, hbuild, by decide, fun shape => ?_⟩
  obtain ⟨a', placement, hplace, hparent, hleg⟩ := hplaces shape
  obtain ⟨rebuilt, o, o', hrebuilt, ho, ho', hsame, hunilevel⟩ :=
    organization?_rebuilt Builder.new Builder.new hbuild hplace
  have heq : o = o' := by
    cases shape with
    | unilevel =>
      have hfree : RightFree mixed placement.parentId := hparent ▸ by decide
      exact (hunilevel rfl).mpr hfree
    | binary => exact hsame (.inl hleg)
  exact ⟨a', placement, rebuilt, o, hplace, hparent, hleg, hrebuilt, ho, heq ▸ ho'⟩

/-- A root with one member below it, on the right leg. -/
def lopsided : List Record := [bare "a" none none, bare "b" (some "a") (some .right)]

/-- A unilevel placement comes last, and a build lays it out before the right leg. -/
theorem organization?_rebuilt_lopsided :
    ∃ a a' placement rebuilt, (Builder.new.build lopsided).1 = .ok a ∧
      a.place "a" (bare "c" none none).member .unilevel = (.ok placement, a') ∧
      (Builder.new.build (lopsided ++ [bare "c" (some placement.parentId) placement.leg])).1 =
        .ok rebuilt ∧
      a'.organization? ≠ rebuilt.organization? :=
  ⟨_, _, _, _, rfl, rfl, rfl, by decide⟩

end Downline.Record
