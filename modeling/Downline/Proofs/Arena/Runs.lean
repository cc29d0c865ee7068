import Downline.Proofs.Arena.Placing
import Downline.Proofs.Record.Mirror

/-!
# Arenas in use

An arena in use was built from records and has had members placed in it since. Whatever was
attempted, it `Holds` exactly the members of the records and those that were placed: a build
answers a whole arena (`whole_of_build`), and attempts keep it whole.
-/

namespace Downline.Arena

/-- An arena holds one member for each of the given ids and no other: each has a node that the
first walk meets once and that is found by the id. -/
structure Holds (a : Arena) (ids : List String) : Prop where
  distinct : a.ids.Nodup
  perm : a.ids.Perm ids
  size : a.size = ids.length
  reachable : ∀ h < a.size, ∃ r, a.root = some r ∧ a.AtOrBelow r h
  /-- The first walk visits every node once. -/
  walk : (a.preorder.map Prod.fst).Perm (List.range a.size)
  shown : ∀ e ∈ a.preorder, a.node? e.1 = some e.2
  /-- It has ended then: more steps visit nothing more. -/
  ended : ∀ fuel, a.size ≤ fuel → a.preorderFrom fuel a.root.toList = a.preorder
  found : ∀ id ∈ ids, ∃ h n, a.find? id = some h ∧ a.node? h = some n ∧ n.member.id = id ∧
    ∀ k m, a.node? k = some m → m.member.id = id → k = h
  absent : ∀ id ∉ ids, a.find? id = none

theorem Whole.holds {a : Arena} (ha : a.Whole) {ids : List String} (hperm : a.ids.Perm ids) :
    a.Holds ids where
  distinct := ha.distinct
  perm := hperm
  size := by rw [← hperm.length_eq, length_ids]
  reachable := fun _ hlt => ha.atOrBelow_root hlt
  walk := ha.preorder_perm
  shown := fun _ he => node?_of_mem_preorderFrom he
  ended := fun _ hfuel => ha.preorderFrom_of_le hfuel
  found := by
    intro id hmem
    obtain ⟨h, n, hn, rfl⟩ := mem_ids_iff.mp (hperm.mem_iff.mpr hmem)
    exact ⟨h, n, ha.find?_of_node? hn, hn, rfl, fun k m hm hk => ha.handle_unique hm hn hk⟩
  absent := fun id hnot => find?_of_not_mem_ids fun hmem => hnot (hperm.mem_iff.mp hmem)

theorem ids_eq_of_mirrors {rs order : List Record} {a : Arena} (h : Record.Mirrors rs order a) :
    a.ids = order.map Record.id := by
  have hids : a.ids = (order.map Record.member).map (·.id) := by
    refine ids_eq_of_listed (by rw [h.size, List.length_map]) fun {k m} hm => ?_
    rw [List.getElem?_map, Option.map_eq_some_iff] at hm
    obtain ⟨r, hr, rfl⟩ := hm
    obtain ⟨n, hn, hfits⟩ := h.node hr
    exact ⟨n, hn, hfits.member⟩
  rw [hids, List.map_map]
  rfl

theorem whole_of_build (b : Builder) {rs : List Record} {a : Arena}
    (h : (b.build rs).1 = .ok a) : a.Whole ∧ a.ids.Perm (rs.map Record.id) := by
  obtain ⟨i, htop, hg⟩ := Record.growing_of_build_eq_ok b h
  obtain ⟨order, hmirrors⟩ := hg.exists_mirrors htop (Record.oneTree_of_build_eq_ok b h)
  have hids := ids_eq_of_mirrors hmirrors
  have hperm : a.ids.Perm (rs.map Record.id) := hids ▸ hmirrors.perm.map Record.id
  refine ⟨⟨hg.sound, ?_, hperm.nodup_iff.mpr hmirrors.distinct⟩, hperm⟩
  intro k n hn
  have hlt : k < order.length := hmirrors.size ▸ lt_size_of_node? hn
  obtain ⟨m, hm, hfits⟩ := hmirrors.node (List.getElem?_eq_getElem hlt)
  obtain rfl : n = m := Option.some.inj (hn.symm.trans hm)
  cases hparent : (order[k]).parentId with
  | none => exact .inl (hfits.top hparent).2
  | some id =>
    obtain ⟨-, p, -, hlink, -⟩ := hfits.link id hparent
    exact .inr ⟨p, hlink⟩

/-- **An arena in use holds the members of its records and those placed since**, whoever was to be
placed below whom, in a tree of either shape, and however many attempts were refused. -/
theorem holds_placeAll (b : Builder) {rs : List Record} {a : Arena}
    (h : (b.build rs).1 = .ok a) (attempts : List Attempt) :
    (a.placeAll attempts).2.Holds
      (rs.map Record.id ++ (a.placeAll attempts).1.map (·.id)) := by
  obtain ⟨hwhole, hperm⟩ := whole_of_build b h
  obtain ⟨hlast, hids⟩ := hwhole.placeAll attempts
  refine hlast.holds ?_
  rw [hids]
  exact hperm.append_right _

/-- An arena in use: built from records, and any attempts made since. -/
def InUse (a : Arena) : Prop :=
  ∃ (b : Builder) (rs : List Record) (built : Arena) (attempts : List Attempt),
    (b.build rs).1 = .ok built ∧ (built.placeAll attempts).2 = a

theorem InUse.whole {a : Arena} (ha : a.InUse) : a.Whole := by
  obtain ⟨b, rs, built, attempts, hbuild, rfl⟩ := ha
  exact ((whole_of_build b hbuild).1.placeAll attempts).1

/-- Three attempts of which the second is refused, since its member is there already. -/
def threeAttempts : List Attempt :=
  [⟨"a", (Record.bare "f" none none).member, .binary⟩,
    ⟨"b", (Record.bare "e" none none).member, .unilevel⟩,
    ⟨"f", (Record.bare "g" none none).member, .unilevel⟩]

theorem holds_placeAll_mixed :
    ∃ a, (Builder.new.build Record.mixed).1 = .ok a ∧
      (a.placeAll threeAttempts).1.map (·.id) = ["f", "g"] ∧
      (a.placeAll threeAttempts).2.Holds
        (Record.mixed.map Record.id ++ (a.placeAll threeAttempts).1.map (·.id)) :=
  ⟨_, rfl, rfl, holds_placeAll Builder.new rfl threeAttempts⟩

end Downline.Arena
