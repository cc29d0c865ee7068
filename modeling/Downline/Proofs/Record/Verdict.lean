import Downline.Proofs.Record.Growth

/-!
# What a build answers

A build answers the defect of its records (`build_of_defect`), or an arena if they are one rooted
tree (`build_of_oneTree`), and which records the builder was given before makes no difference.

That parent links run in a circle is found by counting. The arena holds a node for each record
from which they lead to the top and for no other (`carries_iff`), so it is as large as the list if
they do so from every record (`size_eq_length_iff`), and otherwise the first record without a node
is the first from which they do not (`firstDetached?_eq_some`).
-/

namespace Downline.Record

/-! ## What the second pass finds at the top -/

theorem Surveyed.top {rs : List Record} {found : Survey} {i : Nat} {id : String}
    (h : Surveyed rs found) (hroot : found.root = some (i, id)) : Top rs i where
  parentless := by
    obtain ⟨r, hr, hnone, -⟩ := h.root.mp hroot
    exact ⟨r, hr, hnone⟩
  unique := by
    intro j q hq hnone
    have hj : found.root = some (j, q.id) := h.root.mpr ⟨q, hq, hnone, rfl⟩
    exact (Prod.mk.inj (Option.some.inj (hj.symm.trans hroot))).1

/-- Where no record is without a parent, parent links lead nowhere. -/
theorem Surveyed.not_reachesTop {rs : List Record} {found : Survey} (h : Surveyed rs found)
    (hroot : found.root = none) {r : Record} (hr : r ∈ rs) : ¬ ReachesTop rs r := by
  rintro ⟨links, hclimbs⟩
  induction hclimbs with
  | top hnone =>
    obtain ⟨j, hj⟩ := List.mem_iff_getElem?.mp hr
    cases hroot.symm.trans (h.root.mpr ⟨_, hj, hnone, rfl⟩)
  | up _ hq _ ih => exact ih hq

/-! ## What the size of the arena tells -/

section Size

variable {rs : List Record} {i : Nat} {a : Arena} (hdistinct : (rs.map id).Nodup)
  (htop : Top rs i) (hg : Growing rs (reached rs i) [] a)

include hdistinct htop hg

/-- A record has a node exactly if its parent links lead to the top. -/
theorem carries_iff {r : Record} (hr : r ∈ rs) :
    a.nodes.any (fun n => n.member.id == r.id) = true ↔ ReachesTop rs r := by
  obtain ⟨j, hj⟩ := List.mem_iff_getElem?.mp hr
  rw [← mem_reached_iff hdistinct htop hj, Array.any_eq_true]
  constructor
  · rintro ⟨h, hlt, hid⟩
    have hn : a.node? h = some a.nodes[h] := Array.getElem?_eq_getElem hlt
    obtain ⟨k, hk⟩ := hg.exists_seated hn
    obtain ⟨q, hq, hmember, -⟩ := hg.carried hk hn
    have hsame : r.id = q.id := by rw [Record.id, Record.id, ← hmember, eq_of_beq hid]; rfl
    exact place_unique hdistinct hj hq hsame ▸ List.mem_of_getElem? hk
  · intro hmem
    obtain ⟨h, hh⟩ := List.mem_iff_getElem?.mp hmem
    obtain ⟨n, hn⟩ := hg.exists_node? hh
    obtain ⟨q, hq, hmember, -⟩ := hg.carried hh hn
    obtain rfl : r = q := Option.some.inj (hj.symm.trans hq)
    obtain ⟨hlt, rfl⟩ := Array.getElem?_eq_some_iff.mp hn
    exact ⟨h, hlt, beq_iff_eq.mpr (congrArg Member.id hmember)⟩

/-- Every record has a node exactly if there are as many nodes as records. -/
theorem size_eq_length_iff : a.size = rs.length ↔ ∀ r ∈ rs, ReachesTop rs r := by
  rw [hg.size]
  constructor
  · intro hlen r hr
    obtain ⟨j, hj⟩ := List.mem_iff_getElem?.mp hr
    have hsub : reached rs i ⊆ List.range rs.length := fun k hk =>
      List.mem_range.mpr (lt_of_mem_reached htop.lt_length hk)
    have hsubperm := (nodup_reached hdistinct htop).subperm hsub
    have hperm := hsubperm.perm_of_length_le (Nat.le_of_eq (List.length_range.trans hlen.symm))
    refine (mem_reached_iff hdistinct htop hj).mp (hperm.mem_iff.mpr ?_)
    exact List.mem_range.mpr (List.getElem?_eq_some_iff.mp hj).1
  · intro hall
    rw [(reached_perm hdistinct htop hall).length_eq, List.length_range]

/-- The first record without a node is the first from which parent links do not lead to the top. -/
theorem firstDetached?_eq_some {before : List Record} {r : Record}
    (hfirst : FirstOffender (fun _ q => ¬ ReachesTop rs q) rs before r) :
    firstDetached? rs a = some r.id := by
  obtain ⟨after, hafter⟩ := hfirst.leading
  have hmem : ∀ q ∈ before ++ [r], q ∈ rs := fun q hq => hafter ▸ List.mem_append_left after hq
  have hskip : ∀ q ∈ before, !!a.nodes.any fun n => n.member.id == q.id := by
    intro q hq
    have hreach : ReachesTop rs q := not_not.mp (hfirst.clean.not_of_mem hq)
    rw [Bool.not_not]
    exact (carries_iff hdistinct htop hg (hmem q (List.mem_append_left [r] hq))).mpr hreach
  have hstop : !a.nodes.any fun n => n.member.id == r.id := by
    rw [Bool.not_eq_true']
    refine Bool.eq_false_iff.mpr fun hcarried => hfirst.offends ?_
    exact (carries_iff hdistinct htop hg (hmem r List.mem_concat_self)).mp hcarried
  refine Option.map_eq_some_iff.mpr ⟨r, List.find?_eq_some_iff_append.mpr ?_, rfl⟩
  exact ⟨hstop, before, after, by rw [← hafter, List.append_assoc, List.singleton_append], hskip⟩

end Size

/-! ## The branches of a build -/

section Build

variable (b : Builder) {rs : List Record}

theorem build_repeated {id : String} (h : firstRepeated? [] rs = some id) :
    (b.build rs).1 = .error (.duplicateNode id) := by
  cases rs with
  | nil => cases h
  | cons first rest => simp only [Builder.build, h]

theorem build_refused {fault : Fault} (hnew : firstRepeated? [] rs = none)
    (h : surveyFrom (rs.map id) ⟨none, []⟩ 0 rs = .error fault) :
    (b.build rs).1 = .error fault := by
  cases rs with
  | nil => cases h
  | cons first rest => simp only [Builder.build, hnew, h]

theorem build_headless {first : Record} {rest : List Record} {found : Survey}
    (hnew : firstRepeated? [] (first :: rest) = none)
    (h : surveyFrom ((first :: rest).map id) ⟨none, []⟩ 0 (first :: rest) = .ok found)
    (hroot : found.root = none) :
    (b.build (first :: rest)).1 = .error (.cycleDetected first.id) := by
  simp only [Builder.build, hnew, h, hroot]

/-- Once the top is found, the arena is grown from there and its size decides. -/
theorem build_grown {found : Survey} {i : Nat} {id : String} {a : Arena}
    (hnew : firstRepeated? [] rs = none)
    (h : surveyFrom (rs.map Record.id) ⟨none, []⟩ 0 rs = .ok found)
    (hroot : found.root = some (i, id))
    (hgrow : grow rs found.families rs.length [(i, none)] .empty = a) :
    (b.build rs).1 =
      if a.size = rs.length then .ok a
      else .error (.cycleDetected ((firstDetached? rs a).getD "")) := by
  subst hgrow
  cases rs with
  | nil =>
    cases h
    cases hroot
  | cons first rest =>
    simp only [Builder.build, hnew, h, hroot]
    exact apply_ite Prod.fst _ _ _

/-- After both passes there is no top, or the arena is grown from it. -/
theorem build_of_clean (hclean : Clean Repeats rs) (hplaced : Clean (Misplaced (rs.map id)) rs) :
    ((∀ r ∈ rs, ¬ ReachesTop rs r) ∧
      ∀ first ∈ rs.head?, (b.build rs).1 = .error (.cycleDetected first.id)) ∨
    ∃ i a, Top rs i ∧ Growing rs (reached rs i) [] a ∧
      (b.build rs).1 =
        if a.size = rs.length then .ok a
        else .error (.cycleDetected ((firstDetached? rs a).getD "")) := by
  have hnew := firstRepeated?_eq_none hclean
  obtain ⟨found, hfound, hpass⟩ := surveyFrom_eq_ok hplaced
  cases hroot : found.root with
  | none =>
    refine .inl ⟨fun r hr => hfound.not_reachesTop hroot hr, fun first hfirst => ?_⟩
    cases rs with
    | nil => cases hfirst
    | cons first' rest =>
      obtain rfl : first' = first := Option.some.inj hfirst
      exact build_headless b hnew hpass hroot
  | some top =>
    have htop := hfound.top hroot
    have hg := growing_reached (clean_repeats_iff.mp hclean) htop hfound.families
    exact .inr ⟨top.1, _, htop, hg, build_grown b hnew hpass hroot rfl⟩

/-! ## The verdict -/

/-- Where the passes find nothing wrong, the first record that does not lead to the top is
reported. -/
theorem build_cyclic {before : List Record} {r : Record} (hclean : Clean Repeats rs)
    (hplaced : Clean (Misplaced (rs.map id)) rs)
    (hfirst : FirstOffender (fun _ q => ¬ ReachesTop rs q) rs before r) :
    (b.build rs).1 = .error (.cycleDetected r.id) := by
  rcases build_of_clean b hclean hplaced with ⟨hnone, hbuild⟩ | ⟨i, a, htop, hg, hbuild⟩
  · -- nothing reaches a top that is not there, so the first record is the first offender
    obtain ⟨after, rfl⟩ := hfirst.leading
    cases before with
    | nil => exact hbuild r rfl
    | cons first before =>
      refine absurd ?_ (hfirst.clean.not_of_mem List.mem_cons_self)
      exact hnone first List.mem_cons_self
  · have hdistinct := clean_repeats_iff.mp hclean
    have hsmall : a.size ≠ rs.length := by
      intro hsize
      have hall := (size_eq_length_iff hdistinct htop hg).mp hsize
      exact hfirst.offends (hall r (hfirst.leading.subset List.mem_concat_self))
    rw [hbuild, if_neg hsmall, firstDetached?_eq_some hdistinct htop hg hfirst, Option.getD_some]

theorem build_of_defect {fault : Fault} (h : Defect rs fault) :
    (b.build rs).1 = .error fault := by
  cases h with
  | empty h =>
    subst h
    rfl
  | duplicate hfirst => exact build_repeated b (firstRepeated?_eq_some hfirst)
  | secondRoot hclean hfirst hnone hmem htop =>
    refine build_refused b (firstRepeated?_eq_none hclean) (surveyFrom_eq_error hfirst ?_)
    exact fun found hfound place => hfound.survey_secondRoot place hnone hmem htop
  | @strayParent before r p hclean hfirst hparent =>
    refine build_refused b (firstRepeated?_eq_none hclean) (surveyFrom_eq_error hfirst ?_)
    have hstray : p ∉ rs.map id := by
      rcases hfirst.offends with ⟨hnone, -⟩ | ⟨q, hq, hstray⟩
      · cases hnone.symm.trans hparent
      · obtain rfl : p = q := Option.some.inj (hparent.symm.trans hq)
        exact hstray
    exact fun found _ place => survey_strayParent found place hparent hstray
  | cycle hclean hplaced hfirst => exact build_cyclic b hclean hplaced hfirst

theorem build_of_oneTree (h : OneTree rs) :
    ∃ i a, (b.build rs).1 = .ok a ∧ Top rs i ∧ Growing rs (reached rs i) [] a := by
  rcases build_of_clean b h.distinct h.placed with ⟨hnone, -⟩ | ⟨i, a, htop, hg, hbuild⟩
  · obtain ⟨r, hr⟩ := List.exists_mem_of_ne_nil rs h.nonempty
    exact absurd (h.rooted r hr) (hnone r hr)
  · have hdistinct := clean_repeats_iff.mp h.distinct
    refine ⟨i, a, ?_, htop, hg⟩
    rw [hbuild, if_pos ((size_eq_length_iff hdistinct htop hg).mpr h.rooted)]

theorem oneTree_of_build_eq_ok {a : Arena} (h : (b.build rs).1 = .ok a) : OneTree rs := by
  rcases defect_or_oneTree rs with ⟨fault, hdefect⟩ | htree
  · cases h.symm.trans (build_of_defect b hdefect)
  · exact htree

theorem growing_of_build_eq_ok {a : Arena} (h : (b.build rs).1 = .ok a) :
    ∃ i, Top rs i ∧ Growing rs (reached rs i) [] a := by
  obtain ⟨i, a', ha', htop, hg⟩ := build_of_oneTree b (oneTree_of_build_eq_ok b h)
  obtain rfl : a = a' := Except.ok.inj (h.symm.trans ha')
  exact ⟨i, htop, hg⟩

/-- **A build decides whether its records are one rooted tree.** It answers a fault exactly if the
records have that defect, and an arena exactly if they have none, whatever the builder was used for
before. -/
theorem build_decides (b : Builder) (rs : List Record) :
    (∀ fault, (b.build rs).1 = .error fault ↔ Defect rs fault) ∧
      ((∃ a, (b.build rs).1 = .ok a) ↔ OneTree rs) := by
  refine ⟨fun fault => ⟨fun herror => ?_, build_of_defect b⟩, fun ⟨a, ha⟩ => ?_, fun htree => ?_⟩
  · rcases defect_or_oneTree rs with ⟨fault', hdefect⟩ | htree
    · obtain rfl := Except.error.inj (herror.symm.trans (build_of_defect b hdefect))
      exact hdefect
    · obtain ⟨_, a, ha, -⟩ := build_of_oneTree b htree
      cases herror.symm.trans ha
  · exact oneTree_of_build_eq_ok b ha
  · obtain ⟨_, a, ha, -⟩ := build_of_oneTree b htree
    exact ⟨a, ha⟩

end Build

end Downline.Record
