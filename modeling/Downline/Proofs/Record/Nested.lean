import Downline.Proofs.Arena.Nested
import Downline.Proofs.Record.Mirror

/-!
# Records as a nested tree

Where an arena's nodes are records and list them the way a function on records does (`Follows`),
the arena shows what the records unfold into along that function. An arena that mirrors records
follows `below`, so its nested tree is what the record without a parent unfolds into
(`Mirrors.exists_organization?`).
-/

namespace Downline.Record

/-- What is at a record and below it, as a tree; `next` lists the records below one. -/
def Spells (next : Record → List Record) : Record → Organization → Prop :=
  Unfolds (fun r => some r.member) next

/-- An arena whose nodes are records, in the given order, and list the records that `next` lists. -/
def Follows (next : Record → List Record) (order : List Record) (a : Arena) : Prop :=
  ∀ h r, order[h]? = some r → ∃ n, a.node? h = some n ∧ n.member = r.member ∧
    n.children.map (order[·]?) = (next r).map some

theorem Follows.shows_iff {next : Record → List Record} {order : List Record} {a : Arena}
    (hf : Follows next order a) {h : Nat} {r : Record} {o : Organization}
    (hr : order[h]? = some r) : a.Shows h o ↔ Spells next r o := by
  have hrelated : ∀ h r, order[h]? = some r →
      (a.node? h).map (·.member) = some r.member ∧
        List.Forall₂ (fun c q => order[c]? = some q) (a.childrenOf h) (next r) := by
    intro h r hr
    obtain ⟨n, hn, hmember, hchildren⟩ := hf h r hr
    refine ⟨by rw [hn, Option.map_some, hmember], ?_⟩
    rw [Arena.childrenOf_eq hn]
    exact forall₂_of_map_eq hchildren
  constructor
  · exact Unfolds.of_related hrelated hr
  · refine Unfolds.of_related (R := fun r h => order[h]? = some r) (fun r h hr => ?_) hr
    obtain ⟨hlabel, hnext⟩ := hrelated h r hr
    exact ⟨hlabel.symm, hnext.flip⟩

/-- **The nested tree of an arena that follows records** is what the record at its root unfolds
into. -/
theorem Follows.exists_organization? {next : Record → List Record} {order : List Record}
    {a : Arena} (hf : Follows next order a) (ha : a.Sound) {h : Nat} {r : Record}
    (hroot : a.root = some h) (hr : order[h]? = some r) :
    ∃ o, a.organization? = some o ∧ Spells next r o := by
  obtain ⟨o, ho, hshows⟩ := ha.exists_organization? hroot
  exact ⟨o, ho, (hf.shows_iff hr).mp hshows⟩

theorem Mirrors.follows {rs order : List Record} {a : Arena} (hm : Mirrors rs order a) :
    Follows (below rs) order a := by
  intro h r hr
  obtain ⟨n, hn, hfits⟩ := hm.node hr
  exact ⟨n, hn, hfits.member, hfits.children⟩

theorem Mirrors.root {rs order : List Record} {a : Arena} (hm : Mirrors rs order a) {r : Record}
    (hr : r ∈ rs) (htop : r.parentId = none) : ∃ h, a.root = some h ∧ order[h]? = some r := by
  obtain ⟨h, hh⟩ := List.mem_iff_getElem?.mp (hm.perm.mem_iff.mpr hr)
  obtain ⟨n, -, hfits⟩ := hm.node hh
  exact ⟨h, (hfits.top htop).2, hh⟩

theorem Mirrors.exists_organization? {rs order : List Record} {a : Arena}
    (hm : Mirrors rs order a) (ha : a.Sound) {r : Record} (hr : r ∈ rs)
    (htop : r.parentId = none) : ∃ o, a.organization? = some o ∧ Spells (below rs) r o := by
  obtain ⟨h, hroot, hh⟩ := hm.root hr htop
  exact hm.follows.exists_organization? ha hroot hh

/-- A build of one rooted tree answers an arena that mirrors it. -/
theorem exists_build_of_oneTree (b : Builder) {rs : List Record} (h : OneTree rs) :
    ∃ a order, (b.build rs).1 = .ok a ∧ a.Sound ∧ Mirrors rs order a := by
  obtain ⟨i, a, ha, htop, hg⟩ := build_of_oneTree b h
  obtain ⟨order, hmirrors⟩ := hg.exists_mirrors htop h
  exact ⟨a, order, ha, hg.sound, hmirrors⟩

end Downline.Record
