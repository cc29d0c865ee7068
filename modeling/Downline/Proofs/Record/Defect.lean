import Downline.Record.Build
import Mathlib.Data.List.Induction

/-!
# What keeps records from being one rooted tree

`Defect` says what may be wrong with a list of records and which fault reports it, in terms of the
list alone. Each defect blames the first record, in the order of the list, that offends against a
rule; the rules are taken one after the other, so a later one is asked only of a list that keeps
the earlier ones. A list that keeps all of them is `OneTree`, and every list has a defect or is one
(`defect_or_oneTree`).
-/

namespace Downline

/-! ## First offenders -/

section First

variable {α : Type*} {offends : List α → α → Prop}

/-- No member offends against a rule, which may look at the members before it. -/
def Clean (offends : List α → α → Prop) (l : List α) : Prop :=
  ∀ before x, before ++ [x] <+: l → ¬ offends before x

/-- A member that offends, after members of which none does. -/
structure FirstOffender (offends : List α → α → Prop) (l before : List α) (x : α) : Prop where
  leading : before ++ [x] <+: l
  clean : Clean offends before
  offends : offends before x

theorem clean_nil : Clean offends [] := by
  intro before x h
  simp at h

theorem clean_iff_getElem {l : List α} :
    Clean offends l ↔ ∀ i (h : i < l.length), ¬ offends (l.take i) l[i] := by
  constructor
  · intro hclean i hi
    refine hclean _ _ ?_
    rw [List.take_append_getElem hi]
    exact List.take_prefix _ l
  · rintro hall before x ⟨after, rfl⟩
    simpa using hall before.length (by simp)

instance [∀ before x, Decidable (offends before x)] (l : List α) : Decidable (Clean offends l) :=
  decidable_of_iff _ clean_iff_getElem.symm

theorem clean_concat_iff {l : List α} {x : α} :
    Clean offends (l ++ [x]) ↔ Clean offends l ∧ ¬ offends l x := by
  constructor
  · intro h
    refine ⟨fun before y hy => ?_, h l x (List.prefix_refl _)⟩
    exact h before y (hy.trans (List.prefix_append l [x]))
  · rintro ⟨hclean, hx⟩ before y hy
    rcases List.prefix_concat_iff.mp hy with heq | hy
    · obtain ⟨rfl, rfl⟩ := List.append_singleton_inj.mp heq
      exact hx
    · exact hclean before y hy

theorem Clean.not_of_mem {p : α → Prop} {l : List α} (h : Clean (fun _ => p) l) {x : α}
    (hx : x ∈ l) : ¬ p x := by
  obtain ⟨before, after, rfl⟩ := List.mem_iff_append.mp hx
  exact h before x ⟨after, by rw [List.append_assoc, List.singleton_append]⟩

/-- A list keeps a rule or has a first member that offends against it. -/
theorem clean_or_firstOffender (offends : List α → α → Prop) (l : List α) :
    Clean offends l ∨ ∃ before x, FirstOffender offends l before x := by
  induction l using List.reverseRecOn with
  | nil => exact .inl clean_nil
  | append_singleton l y ih =>
    rcases ih with hclean | ⟨before, x, hfirst⟩
    · by_cases hy : offends l y
      · exact .inr ⟨l, y, List.prefix_refl _, hclean, hy⟩
      · exact .inl (clean_concat_iff.mpr ⟨hclean, hy⟩)
    · have hleading := hfirst.leading.trans (List.prefix_append l [y])
      exact .inr ⟨before, x, hleading, hfirst.clean, hfirst.offends⟩

end First

namespace Record

/-! ## The rules -/

/-- An earlier record carries the same id. -/
def Repeats (before : List Record) (r : Record) : Prop := r.id ∈ before.map Record.id

/-- A second record without a parent, or one whose parent is not among the known ids. -/
def Misplaced (known : List String) (before : List Record) (r : Record) : Prop :=
  (r.parentId = none ∧ ∃ q ∈ before, q.parentId = none) ∨
    ∃ p, r.parentId = some p ∧ p ∉ known

/-- That many parent links lead from a record to one without a parent. -/
inductive Climbs (rs : List Record) : Record → Nat → Prop
  | top {r : Record} : r.parentId = none → Climbs rs r 0
  | up {r q : Record} {links : Nat} :
      r.parentId = some q.id → q ∈ rs → Climbs rs q links → Climbs rs r (links + 1)

/-- Following parent links leads to a record without a parent. -/
def ReachesTop (rs : List Record) (r : Record) : Prop := ∃ links, Climbs rs r links

/-- What is wrong with a list of records. -/
inductive Defect (rs : List Record) : Fault → Prop
  | empty : rs = [] → Defect rs .emptyOrganization
  /-- Some id is repeated; the first record that repeats one is blamed. -/
  | duplicate {before : List Record} {r : Record} :
      FirstOffender Repeats rs before r → Defect rs (.duplicateNode r.id)
  /-- The first misplaced record has no parent, and neither has an earlier one. -/
  | secondRoot {before : List Record} {first r : Record} :
      Clean Repeats rs → FirstOffender (Misplaced (rs.map id)) rs before r →
      r.parentId = none → first ∈ before → first.parentId = none →
      Defect rs (.multipleRoots first.id r.id)
  /-- The first misplaced record names a parent that no record is. -/
  | strayParent {before : List Record} {r : Record} {p : String} :
      Clean Repeats rs → FirstOffender (Misplaced (rs.map id)) rs before r →
      r.parentId = some p → Defect rs (.unknownParent r.id p)
  /-- Parent links do not lead to the top; the first record of which that is true is blamed. -/
  | cycle {before : List Record} {r : Record} :
      Clean Repeats rs → Clean (Misplaced (rs.map id)) rs →
      FirstOffender (fun _ q => ¬ ReachesTop rs q) rs before r →
      Defect rs (.cycleDetected r.id)

/-- The records of one rooted tree. -/
structure OneTree (rs : List Record) : Prop where
  nonempty : rs ≠ []
  distinct : Clean Repeats rs
  placed : Clean (Misplaced (rs.map id)) rs
  rooted : ∀ r ∈ rs, ReachesTop rs r

/-- Every list of records has a defect or is one rooted tree. -/
theorem defect_or_oneTree (rs : List Record) : (∃ f, Defect rs f) ∨ OneTree rs := by
  by_cases hempty : rs = []
  · exact .inl ⟨_, .empty hempty⟩
  rcases clean_or_firstOffender Repeats rs with hdistinct | ⟨before, r, hfirst⟩
  case inr => exact .inl ⟨_, .duplicate hfirst⟩
  rcases clean_or_firstOffender (Misplaced (rs.map id)) rs with hplaced | ⟨before, r, hfirst⟩
  case inr =>
    rcases hfirst.offends with ⟨hnone, q, hq, hqnone⟩ | ⟨p, hp, -⟩
    · exact .inl ⟨_, .secondRoot hdistinct hfirst hnone hq hqnone⟩
    · exact .inl ⟨_, .strayParent hdistinct hfirst hp⟩
  rcases clean_or_firstOffender (fun _ q => ¬ ReachesTop rs q) rs with hrooted | ⟨before, r, hfirst⟩
  case inr => exact .inl ⟨_, .cycle hdistinct hplaced hfirst⟩
  refine .inr ⟨hempty, hdistinct, hplaced, fun r hr => ?_⟩
  exact not_not.mp (hrooted.not_of_mem hr)

/-! ## What the rules give -/

theorem clean_repeats_iff {rs : List Record} : Clean Repeats rs ↔ (rs.map id).Nodup := by
  induction rs using List.reverseRecOn with
  | nil => simp only [clean_nil, List.map_nil, List.nodup_nil]
  | append_singleton rs r ih =>
    rw [clean_concat_iff, ih, List.map_append, List.map_singleton,
      (List.perm_append_singleton r.id _).nodup_iff, List.nodup_cons, and_comm]
    rfl

theorem Climbs.mono {rs rs' : List Record} (hsub : rs ⊆ rs') {r : Record} {links : Nat}
    (h : Climbs rs r links) : Climbs rs' r links := by
  induction h with
  | top hnone => exact .top hnone
  | up hparent hmem _ ih => exact .up hparent (hsub hmem) ih

theorem OneTree.parent_mem {rs : List Record} (h : OneTree rs) {r : Record} {id : String}
    (hr : r ∈ rs) (hparent : r.parentId = some id) : id ∈ rs.map Record.id := by
  obtain ⟨links, hclimbs⟩ := h.rooted r hr
  cases hclimbs with
  | top hnone => cases hnone.symm.trans hparent
  | @up _ q _ hq hmem _ =>
    obtain rfl : q.id = id := Option.some.inj (hq.symm.trans hparent)
    exact List.mem_map_of_mem hmem

end Record

end Downline
