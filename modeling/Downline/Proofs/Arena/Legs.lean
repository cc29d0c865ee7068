import Downline.Proofs.Arena.Runs

/-!
# Legs stay apart

No operation asks whether two children of a node stand on one leg. It follows from where a search
ends: a member in a binary tree goes where it is the first on its leg, and in a unilevel tree it
stands on none. So at most one child of a node stands on each leg (`OnePerLeg`) after any attempts,
if that was so of the records (`onePerLeg_placeAll`). If all members but the root stand on a leg,
which binary placements keep, a node has two children at most.
-/

namespace Downline

/-- No two records that name the same parent stand on the same leg. -/
def Record.LegsApart (rs : List Record) : Prop :=
  rs.Pairwise fun r q =>
    ¬ (r.parentId = q.parentId ∧ r.parentId ≠ none ∧ r.leg = q.leg ∧ r.leg ≠ none)

instance (rs : List Record) : Decidable (Record.LegsApart rs) :=
  inferInstanceAs (Decidable (List.Pairwise _ rs))

namespace Arena

/-- At most one child of a node stands on each leg. -/
def OnePerLeg (a : Arena) : Prop :=
  ∀ h n, a.node? h = some n → ∀ leg, (a.standing n leg).length ≤ 1

/-- Every node that hangs below another one stands on a leg. -/
def Legged (a : Arena) : Prop := ∀ h n p, a.node? h = some n → n.link = .below p → n.leg ≠ none

/-! ## What an insertion does to legs -/

section Insert

variable {a : Arena} (ha : a.Sound) {p : Nat} {above : ArenaNode} (hp : a.node? p = some above)
  (member : Member) (leg : Option Leg)

include hp in
theorem standing_newcomer (l : Leg) :
    (a.insert member (some p) leg).1.standing (a.newcomer member (some p) leg) l = [] := by
  rw [newcomer_below member leg hp, standing, List.filter_nil]

include ha

/-- The children that stood on a leg stand there still, and the new node comes last if that is its
leg. -/
theorem standing_adopting {h : Nat} {n : ArenaNode} (hn : a.node? h = some n) (l : Leg) :
    (a.insert member (some p) leg).1.standing (a.adopting (some p) h n) l =
      a.standing n l ++ if p = h ∧ leg = some l then [a.size] else [] := by
  have hold : n.children.filter (fun c =>
      ((a.insert member (some p) leg).1.node? c).bind (·.leg) = some l) = a.standing n l := by
    refine List.filter_congr fun c hc => ?_
    obtain ⟨m, hm, -⟩ := ha.linked hn hc
    rw [node?_insert member (some p) leg hm, hm, Option.bind_some, Option.bind_some, leg_adopting]
  unfold adopting
  by_cases hself : p = h
  · subst hself
    have hnew : ((a.insert member (some p) leg).1.node? a.size).bind (·.leg) = leg := by
      rw [node?_insert_new, Option.bind_some, leg_newcomer]
    rw [if_pos rfl, standing, List.filter_append, hold, List.filter_singleton, hnew]
    by_cases hl : leg = some l <;> simp [hl]
  · rw [if_neg (hself ∘ Option.some.inj), standing, hold]
    simp [hself]

include hp

theorem OnePerLeg.insert (h : a.OnePerLeg) (hfree : ∀ l, leg = some l → a.standing above l = []) :
    (a.insert member (some p) leg).1.OnePerLeg := by
  intro k n hn l
  rcases node?_insert_cases hn with ⟨-, rfl⟩ | ⟨old, hold, rfl⟩
  · simp [standing_newcomer hp]
  · rw [standing_adopting ha member leg hold]
    split
    next hseat =>
      obtain ⟨rfl, hl⟩ := hseat
      obtain rfl : old = above := Option.some.inj (hold.symm.trans hp)
      simp [hfree l hl]
    next => simpa using h k old hold l

end Insert

theorem Legged.insert {a : Arena} (h : a.Legged) (member : Member) (parent : Option Nat)
    {leg : Option Leg} (hleg : leg ≠ none) : (a.insert member parent leg).1.Legged := by
  intro k n q hn hlink
  rcases node?_insert_cases hn with ⟨-, rfl⟩ | ⟨old, hold, rfl⟩
  · rwa [leg_newcomer]
  · rw [link_adopting] at hlink
    rw [leg_adopting]
    exact h k old q hold hlink

/-- If all that hangs below others stands on a leg, a node has no children besides those on its
legs. -/
theorem OnePerLeg.length_children_le {a : Arena} (h : a.OnePerLeg) (ha : a.Whole)
    (hlegged : a.Legged) {k : Nat} {n : ArenaNode} (hn : a.node? k = some n) :
    n.children.length ≤ 2 := by
  have hrest : n.children.filter (fun c => !decide ((a.node? c).bind (·.leg) = some .left)) =
      a.standing n .right := by
    refine List.filter_congr fun c hc => ?_
    obtain ⟨m, hm, hlink⟩ := ha.linked_below hn hc
    have hleg := hlegged c m k hm hlink
    rw [hm, Option.bind_some]
    rcases hside : m.leg with _ | _ | _
    · exact absurd hside hleg
    · rfl
    · rfl
  calc n.children.length
      = (a.standing n .left).length + (a.standing n .right).length := by
        rw [← hrest]
        exact List.length_eq_length_filter_add _
    _ ≤ 2 := Nat.add_le_add (h k n hn .left) (h k n hn .right)

end Arena

/-! ## Records -/

namespace Record

variable {rs : List Record}

theorem LegsApart.length_le_one (h : LegsApart rs) (parent : String) (leg : Leg) :
    (rs.filter fun q => q.leg = some leg ∧ q.parentId = some parent).length ≤ 1 := by
  induction rs with
  | nil => simp
  | cons r rs ih =>
    obtain ⟨hr, hrs⟩ := List.pairwise_cons.mp h
    by_cases hmatch : r.leg = some leg ∧ r.parentId = some parent
    · have hnone : rs.filter (fun q => q.leg = some leg ∧ q.parentId = some parent) = [] := by
        refine List.filter_eq_nil_iff.mpr fun q hq hsame => hr q hq ?_
        obtain ⟨hleg, hparent⟩ := of_decide_eq_true hsame
        simp [hmatch, hleg, hparent]
      rw [List.filter_cons_of_pos (by simpa using hmatch), hnone, List.length_singleton]
    · rw [List.filter_cons_of_neg (by simpa using hmatch)]
      exact ih hrs

theorem LegsApart.length_below_le_one (h : LegsApart rs) (r : Record) (leg : Leg) :
    ((below rs r).filter fun q => q.leg = some leg).length ≤ 1 := by
  have hperm : (below rs r).Perm (rs.filter fun q => q.parentId = some r.id) := by
    have := List.filter_append_perm (fun q => decide (q.leg ≠ some .right))
      (rs.filter fun q => q.parentId = some r.id)
    simpa [below] using this
  have hlen := (hperm.filter fun q => decide (q.leg = some leg)).length_eq
  rw [hlen, List.filter_filter]
  simpa using h.length_le_one r.id leg

theorem Mirrors.leg_eq {order : List Record} {a : Arena} (hm : Mirrors rs order a) (c : Nat) :
    (a.node? c).bind (·.leg) = (order[c]?).bind (·.leg) := by
  cases hr : order[c]? with
  | none =>
    rw [List.getElem?_eq_none_iff, ← hm.size] at hr
    rw [Arena.node?, Array.getElem?_eq_none_iff.mpr hr, Option.bind_none, Option.bind_none]
  | some r =>
    obtain ⟨n, hn, hfits⟩ := hm.node hr
    rw [hn, Option.bind_some, Option.bind_some, hfits.leg]

theorem Mirrors.onePerLeg {order : List Record} {a : Arena} (hm : Mirrors rs order a)
    (h : LegsApart rs) : a.OnePerLeg := by
  intro k n hn leg
  obtain ⟨r, hr⟩ : ∃ r, order[k]? = some r :=
    ⟨_, List.getElem?_eq_getElem (hm.size ▸ Arena.lt_size_of_node? hn)⟩
  obtain ⟨m, hm', hfits⟩ := hm.node hr
  obtain rfl : n = m := Option.some.inj (hn.symm.trans hm')
  have hstanding := map_getElem?_filter hfits.children fun l => l = some leg
  simp only [← hm.leg_eq] at hstanding
  have hlen := congrArg List.length hstanding
  rw [List.length_map, List.length_map] at hlen
  exact hlen.trans_le (h.length_below_le_one r leg)

theorem Mirrors.legged {order : List Record} {a : Arena} (hm : Mirrors rs order a)
    (h : ∀ r ∈ rs, r.parentId ≠ none → r.leg ≠ none) : a.Legged := by
  intro k n p hn hlink
  obtain ⟨r, hr⟩ : ∃ r, order[k]? = some r :=
    ⟨_, List.getElem?_eq_getElem (hm.size ▸ Arena.lt_size_of_node? hn)⟩
  obtain ⟨m, hm', hfits⟩ := hm.node hr
  obtain rfl : n = m := Option.some.inj (hn.symm.trans hm')
  rw [hfits.leg]
  refine h r (hm.perm.mem_iff.mp (List.mem_of_getElem? hr)) fun hnone => ?_
  cases (hfits.top hnone).1.symm.trans hlink

end Record

/-! ## Attempts -/

namespace Arena

theorem OnePerLeg.place {a : Arena} (h : a.OnePerLeg) (ha : a.Sound) (t : Attempt) :
    (a.place t.sponsorId t.member t.shape).2.OnePerLeg :=
  place_induction h fun _ _ _ _ hvacant => h.insert ha hvacant.node _ _ hvacant.free

/-- **Legs stay apart whatever is attempted.** If no two records below one parent stand on the same
leg, no node ever has two children on a leg; if in addition all records but the top stand on a leg
and all attempts are binary, no node ever has more than two children. -/
theorem onePerLeg_placeAll (b : Builder) {rs : List Record} {a : Arena}
    (hbuild : (b.build rs).1 = .ok a) (hapart : Record.LegsApart rs) (attempts : List Attempt) :
    (a.placeAll attempts).2.OnePerLeg ∧
      ((∀ r ∈ rs, r.parentId ≠ none → r.leg ≠ none) → (∀ t ∈ attempts, t.shape = .binary) →
        ∀ h n, (a.placeAll attempts).2.node? h = some n → n.children.length ≤ 2) := by
  obtain ⟨hwhole, -⟩ := whole_of_build b hbuild
  obtain ⟨i, htop, hg⟩ := Record.growing_of_build_eq_ok b hbuild
  obtain ⟨order, hm⟩ := hg.exists_mirrors htop (Record.oneTree_of_build_eq_ok b hbuild)
  have hone : (a.placeAll attempts).2.OnePerLeg :=
    hwhole.placeAll_induction (hm.onePerLeg hapart) fun t _ _ ha h => h.place ha.toSound t
  refine ⟨hone, fun hlegs hbinary h n hn => ?_⟩
  have hlegged : (a.placeAll attempts).2.Legged := by
    refine hwhole.placeAll_induction (hm.legged hlegs) fun t ht a _ h => ?_
    exact place_induction h fun _ _ _ _ hvacant =>
      h.insert _ _ (hvacant.legged (hbinary t ht))
  exact hone.length_children_le (hwhole.placeAll attempts).1 hlegged hn

/-- A root with a member on each leg, the right one listed first. -/
def bothLegs : List Record :=
  [Record.bare "b" (some "a") (some .right), Record.bare "a" none none,
    Record.bare "c" (some "a") (some .left)]

/-- Two members that spill over, and between them one that is refused. -/
def spilling : List Attempt :=
  [⟨"a", (Record.bare "d" none none).member, .binary⟩,
    ⟨"b", (Record.bare "d" none none).member, .binary⟩,
    ⟨"a", (Record.bare "e" none none).member, .binary⟩]

theorem onePerLeg_placeAll_bothLegs :
    ∃ a, (Builder.new.build bothLegs).1 = .ok a ∧ Record.LegsApart bothLegs ∧
      (a.placeAll spilling).1.map (·.id) = ["d", "e"] ∧ (a.placeAll spilling).2.OnePerLeg ∧
      ∀ h n, (a.placeAll spilling).2.node? h = some n → n.children.length ≤ 2 := by
  have hapart : Record.LegsApart bothLegs := by decide
  obtain ⟨hone, htwo⟩ := onePerLeg_placeAll Builder.new rfl hapart spilling
  exact ⟨_, rfl, hapart, rfl, hone, htwo (by decide) (by decide)⟩

end Arena

end Downline
