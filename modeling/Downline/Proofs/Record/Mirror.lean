import Downline.Proofs.Record.Verdict
import Mathlib.Data.Set.List

/-!
# An arena mirrors its records

`Mirrors` says that an arena says what a list of records says: its nodes are the records, in some
order, each with its record's data, below the node of the record that is named as parent, as deep
as parent links lead up, and above the nodes of the records that name it. Every arena that a build
answers mirrors the records that were given (`Growing.exists_mirrors`), and its order is that of
the first walk (`Growing.handles_preorder`).
-/

namespace Downline.Record

/-- The records that name a record as their parent, as they are laid out below it: those on the
right leg last, and otherwise in the order of the list. -/
def below (rs : List Record) (r : Record) : List Record :=
  let family := rs.filter fun q => q.parentId = some r.id
  (family.filter fun q => q.leg ≠ some .right) ++ family.filter fun q => q.leg = some .right

theorem mem_below_iff {rs : List Record} {r q : Record} :
    q ∈ below rs r ↔ q ∈ rs ∧ q.parentId = some r.id := by
  by_cases hleg : q.leg = some .right <;> simp [below, hleg]

/-- A node is right for a record, where `order` lists the records by the handles of their nodes. -/
structure Fits (rs order : List Record) (a : Arena) (h : Nat) (r : Record) (n : ArenaNode) :
    Prop where
  member : n.member = r.member
  leg : n.leg = r.leg
  /-- Only the record without a parent is at the root. -/
  top : r.parentId = none → n.link = .top ∧ a.root = some h
  /-- The node above is that of the record named as parent. -/
  link : ∀ id, r.parentId = some id →
    a.root ≠ some h ∧ ∃ p q, n.link = .below p ∧ order[p]? = some q ∧ q.id = id
  /-- The depth is the number of parent links up to the top. -/
  depth : Climbs rs r n.depth
  children : n.children.map (order[·]?) = (below rs r).map some

/-- An arena says what the records say. -/
structure Mirrors (rs order : List Record) (a : Arena) : Prop where
  distinct : (rs.map id).Nodup
  perm : order.Perm rs
  size : a.size = order.length
  node : ∀ {h r}, order[h]? = some r → ∃ n, a.node? h = some n ∧ Fits rs order a h r n

/-! ## From places to records -/

theorem forall₂_of_map_eq {α β : Type*} {f : α → Option β} {xs : List α} {ys : List β}
    (h : xs.map f = ys.map some) : List.Forall₂ (fun x y => f x = some y) xs ys := by
  have heq : List.Forall₂ Eq (xs.map f) (ys.map some) := by
    rw [h]
    exact List.forall₂_refl _
  exact List.forall₂_map_right_iff.mp (List.forall₂_map_left_iff.mp heq)

/-- The members at the places that a search finds are those that a filter keeps. -/
theorem map_getElem?_findIdxs {α : Type*} (l : List α) (p : α → Bool) :
    (l.findIdxs p).map (l[·]?) = (l.filter p).map some := by
  refine List.ext_getElem ?_ fun k hk hk' => ?_
  · rw [List.length_map, List.length_map, List.length_findIdxs, List.countP_eq_length_filter]
  · rw [List.getElem_map, List.getElem_map, List.getElem_filter_eq_getElem_getElem_findIdxs]
    exact List.getElem?_eq_getElem _

theorem map_getElem?_filter {rs records : List Record} {places : List Nat}
    (h : places.map (rs[·]?) = records.map some) (p : Option Leg → Bool) :
    (places.filter fun j => p ((rs[j]?).bind (·.leg))).map (rs[·]?) =
      (records.filter fun q => p q.leg).map some := by
  have hfilter := congrArg (List.filter fun o => p (o.bind (·.leg))) h
  rwa [List.filter_map, List.filter_map] at hfilter

theorem map_getElem?_kin {rs : List Record} {i : Nat} {r : Record} (hr : rs[i]? = some r) :
    (kin rs i).map (rs[·]?) = (below rs r).map some := by
  have hright : onRight rs = fun j => decide ((rs[j]?).bind (·.leg) = some .right) :=
    funext fun _ => beq_eq_decide _ _
  have hfamily := map_getElem?_findIdxs rs fun q => q.parentId = some r.id
  have hfirst := map_getElem?_filter hfamily fun leg => leg ≠ some .right
  have hlast := map_getElem?_filter hfamily fun leg => leg = some .right
  simp only [kin_eq hr, laidOut, hright, below, List.map_append, ← decide_not]
  exact congrArg₂ (· ++ ·) hfirst hlast

theorem getElem?_of_map_eq {rs order : List Record} {places : List Nat}
    (horder : places.map (rs[·]?) = order.map some) (k : Nat) :
    order[k]? = (places[k]?).bind (rs[·]?) := by
  have hk : (order[k]?).map some = (places[k]?).map (rs[·]?) := by
    rw [← List.getElem?_map, ← horder, List.getElem?_map]
  cases hj : places[k]? with
  | none => simpa only [hj, Option.map_none, Option.map_eq_none_iff, Option.bind_none] using hk
  | some j =>
    rw [hj, Option.map_some] at hk
    obtain ⟨r, hr, hrj⟩ := Option.map_eq_some_iff.mp hk
    rw [hr, hrj, Option.bind_some]

/-- Where places are those of all records, in some order, so are the records at them. -/
theorem exists_order {rs : List Record} {places : List Nat}
    (hperm : places.Perm (List.range rs.length)) :
    ∃ order : List Record, places.map (rs[·]?) = order.map some ∧ order.Perm rs := by
  have hrange : (List.range rs.length).map (rs[·]?) = rs.map some := by
    refine List.ext_getElem (by simp only [List.length_map, List.length_range]) fun k hk _ => ?_
    rw [List.getElem_map, List.getElem_map, List.getElem_range, List.getElem?_eq_getElem]
  have hmap : (places.map (rs[·]?)).Perm (rs.map some) := hrange ▸ hperm.map (rs[·]?)
  have hlift : places.map (rs[·]?) ∈ Set.range (List.map some) := by
    rw [Set.range_list_map]
    intro o ho
    obtain ⟨r, -, hr⟩ := List.mem_map.mp (hmap.mem_iff.mp ho)
    exact ⟨r, hr⟩
  obtain ⟨order, horder⟩ := hlift
  rw [← horder] at hmap
  exact ⟨order, horder.symm, (List.map_perm_map_iff (Option.some_injective _)).mp hmap⟩

/-! ## The nodes of an arena that is grown to its end -/

section Grown

variable {rs : List Record} {i : Nat} {a : Arena} (hdistinct : (rs.map id).Nodup)
  (htop : Top rs i) (hg : Growing rs (reached rs i) [] a)

include hg in
theorem Growing.children_eq {h j : Nat} {n : ArenaNode} (hj : (reached rs i)[h]? = some j)
    (hn : a.node? h = some n) : n.children.map ((reached rs i)[·]?) = (kin rs j).map some := by
  have hall := hg.children hj hn
  rwa [waiting_eq_nil (List.forall_mem_nil _), List.map_nil, List.append_nil] at hall

include hg in
theorem Growing.climbs {h j : Nat} {n : ArenaNode} {r : Record}
    (hj : (reached rs i)[h]? = some j) (hn : a.node? h = some n) (hr : rs[j]? = some r) :
    Climbs rs r n.depth := by
  -- by induction on handles: the node above came earlier
  induction h using Nat.strongRecOn generalizing j n r with
  | ind h ih =>
    rcases (hg.linked hj hn).cases hr with ⟨hlink, hnone⟩ | ⟨p, k, q, hlink, hk, hq, hparent⟩
    · rw [hg.sound.depth_zero hn fun p hp => by cases hlink.symm.trans hp]
      exact .top hnone
    · obtain ⟨hlt, m, hm, -, hdepth⟩ := hg.sound.listed hn hlink
      rw [hdepth]
      exact .up hparent (List.mem_of_getElem? hq) (ih p hlt hk hm hq)

include hdistinct htop hg in
theorem Growing.eq_zero_iff {h j : Nat} {r : Record} (hj : (reached rs i)[h]? = some j)
    (hr : rs[j]? = some r) : h = 0 ↔ r.parentId = none := by
  obtain ⟨n, hn, hroot⟩ := hg.sound.root_top hg.root
  obtain ⟨k, hk⟩ := hg.exists_seated hn
  obtain ⟨q, hq, -⟩ := hg.carried hk hn
  have hnone : q.parentId = none := by
    rcases (hg.linked hk hn).cases hq with ⟨-, hnone⟩ | ⟨p, _, _, hlink, -⟩
    · exact hnone
    · cases hroot.symm.trans hlink
  constructor
  · rintro rfl
    obtain rfl : j = k := Option.some.inj (hj.symm.trans hk)
    obtain rfl : r = q := Option.some.inj (hr.symm.trans hq)
    exact hnone
  · intro hparent
    obtain rfl : j = k := (htop.unique hr hparent).trans (htop.unique hq hnone).symm
    have hlt := (List.getElem?_eq_some_iff.mp hj).1
    exact (List.getElem?_inj hlt (nodup_reached hdistinct htop)).mp (hj.trans hk.symm)

include hdistinct htop hg in
/-- **An arena that is grown to its end is right for every record that is reached.** -/
theorem Growing.fits {order : List Record}
    (horder : (reached rs i).map (rs[·]?) = order.map some) {h : Nat} {r : Record}
    (hr : order[h]? = some r) : ∃ n, a.node? h = some n ∧ Fits rs order a h r n := by
  have hplace := getElem?_of_map_eq horder
  rw [hplace] at hr
  obtain ⟨j, hj, hr⟩ := Option.bind_eq_some_iff.mp hr
  obtain ⟨n, hn⟩ := hg.exists_node? hj
  obtain ⟨r', hr', hmember, hleg⟩ := hg.carried hj hn
  obtain rfl : r = r' := Option.some.inj (hr.symm.trans hr')
  have hzero := hg.eq_zero_iff hdistinct htop hj hr
  have hlinks := (hg.linked hj hn).cases hr
  refine ⟨n, hn, hmember, hleg, ?top, ?link, hg.climbs hj hn hr, ?children⟩
  case top =>
    intro hnone
    rcases hlinks with ⟨hlink, -⟩ | ⟨p, k, q, -, -, -, hparent⟩
    · exact ⟨hlink, by rw [hg.root, hzero.mpr hnone]⟩
    · cases hnone.symm.trans hparent
  case link =>
    intro id hparent
    rcases hlinks with ⟨-, hnone⟩ | ⟨p, k, q, hlink, hk, hq, hparent'⟩
    · cases hnone.symm.trans hparent
    · refine ⟨fun hroot => ?_, p, q, hlink, ?_, Option.some.inj (hparent'.symm.trans hparent)⟩
      · have hh : h = 0 := Option.some.inj (hroot.symm.trans hg.root)
        cases (hzero.mp hh).symm.trans hparent
      · rw [hplace, hk, Option.bind_some, hq]
  case children =>
    calc n.children.map (order[·]?)
        = (n.children.map ((reached rs i)[·]?)).map (·.bind (rs[·]?)) := by
          simp only [List.map_map, Function.comp_def, hplace]
      _ = ((kin rs j).map some).map (·.bind (rs[·]?)) := by rw [hg.children_eq hj hn]
      _ = (kin rs j).map (rs[·]?) := by
          simp only [List.map_map, Function.comp_def, Option.bind_some]
      _ = (below rs r).map some := map_getElem?_kin hr

include htop hg in
/-- **An arena that is grown from one rooted tree mirrors it.** -/
theorem Growing.exists_mirrors (htree : OneTree rs) : ∃ order, Mirrors rs order a := by
  have hdistinct := clean_repeats_iff.mp htree.distinct
  have hperm := reached_perm hdistinct htop htree.rooted
  obtain ⟨order, horder, hrecords⟩ := exists_order hperm
  refine ⟨order, hdistinct, hrecords, ?_, hg.fits hdistinct htop horder⟩
  rw [hg.size, hperm.length_eq, List.length_range, hrecords.length_eq]

end Grown

/-! ## The order of the nodes -/

theorem eq_range_of_forall₂ {places handles : List Nat} (hnodup : places.Nodup)
    (h : List.Forall₂ (fun k j => places[k]? = some j) handles places) :
    handles = List.range places.length := by
  refine List.ext_getElem (by rw [h.length_eq, List.length_range]) fun k hk hk' => ?_
  have hlt : k < places.length := h.length_eq ▸ hk
  have hback := h.get hk hlt
  rw [List.get_eq_getElem, List.get_eq_getElem, ← List.getElem?_eq_getElem hlt] at hback
  rw [List.getElem_range]
  exact ((List.getElem?_inj hlt hnodup).mp hback.symm).symm

/-- **The first walk goes through an arena in the order in which it was grown.** -/
theorem Growing.handles_preorder {rs : List Record} {i : Nat} {a : Arena}
    (hdistinct : (rs.map id).Nodup) (htop : Top rs i) (hg : Growing rs (reached rs i) [] a)
    (hsize : a.size = rs.length) : a.preorder.map Prod.fst = List.range a.size := by
  have hfamilies : ∀ h j, (reached rs i)[h]? = some j →
      List.Forall₂ (fun h j => (reached rs i)[h]? = some j) (a.childrenOf h) (kin rs j) := by
    intro h j hj
    obtain ⟨n, hn⟩ := hg.exists_node? hj
    rw [Arena.childrenOf_eq hn]
    exact forall₂_of_map_eq (hg.children_eq hj hn)
  have hstart : List.Forall₂ (fun h j => (reached rs i)[h]? = some j) a.root.toList [i] := by
    obtain ⟨n, hn, -⟩ := hg.sound.root_top hg.root
    obtain ⟨j, hj⟩ := hg.exists_seated hn
    obtain ⟨r, hr, -⟩ := hg.carried hj hn
    obtain rfl := htop.unique hr ((hg.eq_zero_iff hdistinct htop hj hr).mp rfl)
    rw [hg.root]
    exact .cons hj .nil
  have hwalk := Walk.forall₂_visits hfamilies rs.length hstart
  rw [hg.sound.handles_preorder, hsize, eq_range_of_forall₂ (nodup_reached hdistinct htop) hwalk,
    ← hg.size, hsize]

/-- **An arena that a build answers mirrors the records**, and the first walk goes through it in
the order in which its nodes were inserted, however many steps beyond the number of nodes it is
given. -/
theorem build_mirrors (b : Builder) {rs : List Record} {a : Arena} (h : (b.build rs).1 = .ok a) :
    (∃ order, Mirrors rs order a) ∧ a.preorder.map Prod.fst = List.range a.size ∧
      ∀ fuel, a.size ≤ fuel → a.preorderFrom fuel a.root.toList = a.preorder := by
  have htree := oneTree_of_build_eq_ok b h
  obtain ⟨i, htop, hg⟩ := growing_of_build_eq_ok b h
  obtain ⟨order, hmirrors⟩ := hg.exists_mirrors htop htree
  have hsize : a.size = rs.length := hmirrors.size.trans hmirrors.perm.length_eq
  refine ⟨⟨order, hmirrors⟩, hg.handles_preorder hmirrors.distinct htop hsize, ?_⟩
  exact fun fuel hfuel => hg.sound.preorderFrom_of_le hfuel

/-- A record with an id, a parent and a leg, and nothing else of note. -/
def bare (id : String) (parentId : Option String) (leg : Option Leg) : Record :=
  ⟨⟨id, "", "", 0, 0, .active⟩, parentId, leg⟩

/-- Five records with families in each other's way: the top comes third, and a right leg before a
left one. -/
def mixed : List Record :=
  [bare "b" (some "a") (some .right), bare "d" (some "b") none, bare "a" none none,
    bare "c" (some "a") (some .left), bare "e" (some "b") (some .left)]

theorem build_mirrors_mixed :
    ∃ a, (Builder.new.build mixed).1 = .ok a ∧ (∃ order, Mirrors mixed order a) ∧
      a.preorder.map Prod.fst = List.range a.size ∧
      ∀ fuel, a.size ≤ fuel → a.preorderFrom fuel a.root.toList = a.preorder := by
  obtain ⟨a, ha⟩ : ∃ a, (Builder.new.build mixed).1 = .ok a := ⟨_, rfl⟩
  exact ⟨a, ha, build_mirrors Builder.new ha⟩

end Downline.Record
