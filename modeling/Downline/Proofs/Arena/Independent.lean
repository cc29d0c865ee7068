import Downline.Proofs.Arena.Renaming
import Downline.Proofs.Arena.Runs

/-!
# Placements that do not meet

A search never leaves what is at or below its sponsor, and an insertion changes the node above the
new one and no other. So below two members neither of whom is above the other, a placement finds
the same seat whether or not a member has been placed below the other one (`Whole.seat?_insert`),
and the two placements may be made in either order (`place_comm`): both succeed, both answers are
the same but for handles, and so are the nested tree and the drawing.
-/

namespace Downline

/-- Two answers say the same of a new member, whatever handle it got. -/
def Placement.Agrees (s t : Placement) : Prop :=
  s.parentId = t.parentId ∧ s.leg = t.leg ∧ s.depth = t.depth ∧ s.spillover = t.spillover

namespace Arena

/-! ## What is below two members -/

/-- Of two nodes that have something below them in common one is below the other. -/
theorem Sound.atOrBelow_total {a : Arena} (ha : a.Sound) {h k p : Nat} (hp : a.AtOrBelow h p)
    (kp : a.AtOrBelow k p) : a.AtOrBelow h k ∨ a.AtOrBelow k h := by
  have hunique : Relator.RightUnique (Function.swap fun p c => c ∈ a.childrenOf p) :=
    fun _ _ _ hx hy => ha.forest.unique hx hy
  have htotal := Relation.ReflTransGen.total_of_right_unique hunique
    (Relation.reflTransGen_swap.mpr hp) (Relation.reflTransGen_swap.mpr kp)
  exact htotal.symm.imp Relation.reflTransGen_swap.mp Relation.reflTransGen_swap.mp

theorem Sound.lt_size_of_atOrBelow {a : Arena} (ha : a.Sound) {h k : Nat} (hh : h < a.size)
    (hk : a.AtOrBelow h k) : k < a.size := by
  cases hk with
  | refl => exact hh
  | tail _ hc => exact ha.child_lt_size hc

/-! ## A placement elsewhere -/

section Elsewhere

variable {a : Arena} (ha : a.Whole) {p : Nat} {above : ArenaNode} (hp : a.node? p = some above)
  {member : Member} (hnew : member.id ∉ a.ids) (leg : Option Leg)

/-- An insertion changes no node but the one above the new one. -/
theorem node?_insert_of_ne {h : Nat} {n : ArenaNode} (hn : a.node? h = some n) (hne : p ≠ h) :
    (a.insert member (some p) leg).1.node? h = some n := by
  rw [node?_insert member (some p) leg hn, adopting_of_ne _ (hne ∘ Option.some.inj), id_eq]

include ha hp hnew

/-- A seat does not depend on what is inserted elsewhere. -/
theorem Whole.seat?_insert {k : Nat} (hk : k < a.size) (haway : ¬ a.AtOrBelow k p)
    (shape : TreeType) : (a.insert member (some p) leg).1.seat? k shape = a.seat? k shape := by
  have hwhole := ha.insert hp member leg hnew
  cases shape with
  | unilevel => rfl
  | binary =>
    have hk' : k < (a.insert member (some p) leg).1.size := by
      rw [size_insert]
      omega
    obtain ⟨seat, hseat, hfinds⟩ := ha.exists_freeLeg? hk
    have hsame : ∀ j, a.AtOrBelow k j → (a.insert member (some p) leg).1.node? j = a.node? j := by
      intro j hj
      obtain ⟨n, hn⟩ := exists_node? (ha.lt_size_of_atOrBelow hk hj)
      have hne : p ≠ j := by
        rintro rfl
        exact haway hj
      rw [node?_insert_of_ne leg hn hne, hn]
    have hfinds' := hfinds.congr (fun j hj => List.mem_singleton.mp hj ▸ .refl)
      (fun j hj c hc => hj.tail hc) hsame
    rw [seat?, seat?, hseat, (hwhole.freeLeg?_eq_some_iff hk').mpr hfinds']

/-- Nor does what is answered there, but for the handle. -/
theorem Whole.place_insert {k q : Nat} {m above' : ArenaNode} {leg' : Option Leg}
    {shape : TreeType} (hm : a.node? k = some m) (haway : ¬ a.AtOrBelow k p)
    (hseat : a.seat? k shape = some (q, leg')) (hvacant : a.Vacant k shape q leg' above')
    {other : Member} (hother : other.id ∉ a.ids) (hne : other.id ≠ member.id) :
    (a.insert member (some p) leg).1.place m.member.id other shape =
      (.ok ⟨a.size + 1, above'.member.id, leg', above'.depth + 1, q != k⟩,
        ((a.insert member (some p) leg).1.insert other (some q) leg').1) := by
  have hwhole := ha.insert hp member leg hnew
  have hk := lt_size_of_node? hm
  have hpk : p ≠ k := by
    rintro rfl
    exact haway .refl
  have hpq : p ≠ q := by
    rintro rfl
    exact haway hvacant.below
  have hfind := hwhole.find?_of_node? (node?_insert_of_ne leg hm hpk)
  have hfresh : other.id ∉ (a.insert member (some p) leg).1.ids := by
    rw [ids_insert]
    simp [hother, hne]
  have hseat' : (a.insert member (some p) leg).1.seat? k shape = some (q, leg') := by
    rw [ha.seat?_insert hp hnew leg hk haway, hseat]
  rw [place_of_seat? (find?_of_not_mem_ids hfresh) hfind hseat'
    (node?_insert_of_ne leg hvacant.node hpq), size_insert]

end Elsewhere

/-! ## Either order -/

/-- **Placements below two members commute if neither member is above the other.** In either order
both succeed, each answer is the same but for the handle, and in the end the nested tree and the
drawing are the same. -/
theorem place_comm {a : Arena} (ha : a.InUse) {h k : Nat} {n m : ArenaNode}
    (hn : a.node? h = some n) (hm : a.node? k = some m) (hhk : ¬ a.AtOrBelow h k)
    (hkh : ¬ a.AtOrBelow k h) {x y : Member} (hx : x.id ∉ a.ids) (hy : y.id ∉ a.ids)
    (hxy : x.id ≠ y.id) (shape shape' : TreeType) :
    ∃ px py px' py' ax ay axy ayx,
      a.place n.member.id x shape = (.ok px, ax) ∧
      ax.place m.member.id y shape' = (.ok py, axy) ∧
      a.place m.member.id y shape' = (.ok py', ay) ∧
      ay.place n.member.id x shape = (.ok px', ayx) ∧
      px.Agrees px' ∧ py.Agrees py' ∧
      (∃ o, axy.organization? = some o ∧ ayx.organization? = some o) ∧
      axy.drawing = ayx.drawing := by
  have hwhole := ha.whole
  obtain ⟨p, leg, above, hseat, hvacant, hplace⟩ := hwhole.exists_place hn hx shape
  obtain ⟨q, leg', above', hseat', hvacant', hplace'⟩ := hwhole.exists_place hm hy shape'
  -- neither seat is below the other sponsor
  have hkp : ¬ a.AtOrBelow k p := fun hkp =>
    (hwhole.atOrBelow_total hvacant.below hkp).elim hhk hkh
  have hhq : ¬ a.AtOrBelow h q := fun hhq =>
    (hwhole.atOrBelow_total hvacant'.below hhq).elim hkh hhk
  have hpq : p ≠ q := by
    rintro rfl
    exact hkp hvacant'.below
  have hrenamed := hwhole.renamed_insert_insert hvacant.node hvacant'.node x y leg leg' hpq
  have hsound := (hwhole.toSound.insert x (some p) leg).insert y (some q) leg'
  have hsound' := (hwhole.toSound.insert y (some q) leg').insert x (some p) leg
  refine ⟨_, _, _, _, _, _, _, _, hplace,
    hwhole.place_insert hvacant.node hx leg hm hkp hseat' hvacant' hy hxy.symm, hplace',
    hwhole.place_insert hvacant'.node hy leg' hn hhq hseat hvacant hx hxy,
    ⟨rfl, rfl, rfl, rfl⟩, ⟨rfl, rfl, rfl, rfl⟩, ?_, (hrenamed.drawing_eq hsound).symm⟩
  obtain ⟨r, hr, -⟩ := hwhole.atOrBelow_root (lt_size_of_node? hn)
  obtain ⟨o, ho, -⟩ := hsound.exists_organization? (r := r) (by simpa [root_insert] using hr)
  exact ⟨o, ho, (hrenamed.organization?_eq hsound hsound').trans ho⟩

/-- The five members of `Record.mixed` and the two who were placed among them. -/
def settled : Arena :=
  match Arena.ofRecords Record.mixed with
  | .ok a => (a.placeAll threeAttempts).2
  | .error _ => .empty

/-- One new member below the left leg of the root, where two are already, and one below the right
leg. -/
theorem place_comm_settled :
    settled.InUse ∧ ¬ settled.AtOrBelow 1 2 ∧ ¬ settled.AtOrBelow 2 1 ∧
      ∃ px py px' py' ax ay axy ayx,
        settled.place "c" (Record.bare "x" none none).member .binary = (.ok px, ax) ∧
        ax.place "b" (Record.bare "y" none none).member .unilevel = (.ok py, axy) ∧
        settled.place "b" (Record.bare "y" none none).member .unilevel = (.ok py', ay) ∧
        ay.place "c" (Record.bare "x" none none).member .binary = (.ok px', ayx) ∧
        px.Agrees px' ∧ py.Agrees py' ∧
        (∃ o, axy.organization? = some o ∧ ayx.organization? = some o) ∧
        axy.drawing = ayx.drawing := by
  have huse : settled.InUse := ⟨Builder.new, Record.mixed, _, threeAttempts, rfl, rfl⟩
  have hfirst : ∀ k, settled.AtOrBelow 1 k → k ∈ [1, 5, 6] := fun k hk =>
    hk.mem_of_closed (by decide) (by decide)
  have hsecond : ∀ k, settled.AtOrBelow 2 k → k ∈ [2, 3, 4] := fun k hk =>
    hk.mem_of_closed (by decide) (by decide)
  have hleft : ¬ settled.AtOrBelow 1 2 := fun h => absurd (hfirst 2 h) (by decide)
  have hright : ¬ settled.AtOrBelow 2 1 := fun h => absurd (hsecond 1 h) (by decide)
  exact ⟨huse, hleft, hright, place_comm huse rfl rfl hleft hright (by decide) (by decide)
    (by decide) .binary .unilevel⟩

end Arena

end Downline
