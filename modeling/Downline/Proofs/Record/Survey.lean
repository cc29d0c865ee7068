import Downline.Proofs.Record.Defect
import Mathlib.Data.List.Basic

/-!
# The passes over the records

Before an arena is grown, records are gone through twice: for repeated ids, and for roots and
parents. Each pass gets past records that keep its rule and stops at the first one that does not
(`firstRepeated?_of_clean`, `surveyFrom_of_clean`), so it answers what `Defect` says. What the
second pass has noted by then is `Surveyed`: the record without a parent, and under each id the
places of the records that name it.
-/

namespace Downline.Record

/-! ## Repeated ids -/

/-- The first pass gets past records that repeat no id, and remembers theirs. -/
theorem firstRepeated?_of_clean {before : List Record} (h : Clean Repeats before)
    (rest : List Record) :
    firstRepeated? [] (before ++ rest) = firstRepeated? (before.map id).reverse rest := by
  induction before using List.reverseRecOn generalizing rest with
  | nil => rfl
  | append_singleton before r ih =>
    obtain ⟨hclean, hr⟩ := clean_concat_iff.mp h
    have hnew : r.id ∉ (before.map id).reverse := fun hmem => hr (List.mem_reverse.mp hmem)
    rw [List.append_assoc, List.singleton_append, ih hclean, firstRepeated?, if_neg hnew,
      List.map_append, List.map_singleton, List.reverse_append, List.reverse_singleton,
      List.singleton_append]

theorem firstRepeated?_eq_none {rs : List Record} (h : Clean Repeats rs) :
    firstRepeated? [] rs = none := by
  rw [← List.append_nil rs, firstRepeated?_of_clean h]
  rfl

theorem firstRepeated?_eq_some {rs before : List Record} {r : Record}
    (h : FirstOffender Repeats rs before r) : firstRepeated? [] rs = some r.id := by
  obtain ⟨after, rfl⟩ := h.leading
  rw [List.append_assoc, firstRepeated?_of_clean h.clean, List.singleton_append, firstRepeated?,
    if_pos (List.mem_reverse.mpr h.offends)]

/-! ## Roots and parents -/

theorem getElem?_append_singleton_eq_some {α : Type*} {l : List α} {x y : α} {i : Nat} :
    (l ++ [x])[i]? = some y ↔ l[i]? = some y ∨ i = l.length ∧ x = y := by
  grind

/-- What the second pass has noted of the records that it has passed. -/
structure Surveyed (passed : List Record) (found : Survey) : Prop where
  root : ∀ {i id}, found.root = some (i, id) ↔
    ∃ r, passed[i]? = some r ∧ r.parentId = none ∧ r.id = id
  families : ∀ p, found.families.of p = passed.findIdxs fun r => r.parentId = some p

theorem surveyed_nil : Surveyed [] ⟨none, []⟩ where
  root := by simp
  families := fun _ => rfl

/-- A record that is not misplaced is noted. -/
theorem Surveyed.step {known : List String} {passed : List Record} {found : Survey} {r : Record}
    (h : Surveyed passed found) (hr : ¬ Misplaced known passed r) :
    ∃ found', survey known found r passed.length = .ok found' ∧
      Surveyed (passed ++ [r]) found' := by
  cases hparent : r.parentId with
  | none =>
    have hearlier : ∀ q ∈ passed, q.parentId ≠ none := fun q hq hnone =>
      hr (.inl ⟨hparent, q, hq, hnone⟩)
    have hroot : found.root = none := by
      rw [Option.eq_none_iff_forall_ne_some]
      rintro ⟨i, id⟩ hi
      obtain ⟨q, hq, hnone, -⟩ := h.root.mp hi
      exact hearlier q (List.mem_of_getElem? hq) hnone
    refine ⟨{ found with root := some (passed.length, r.id) }, ?_, ?_, ?_⟩
    · simp only [survey, hparent, hroot]
    · intro i id
      constructor
      · rintro ⟨rfl, rfl⟩
        exact ⟨r, List.getElem?_concat_length, hparent, rfl⟩
      · rintro ⟨q, hq, hnone, rfl⟩
        rcases getElem?_append_singleton_eq_some.mp hq with hq | ⟨rfl, rfl⟩
        · exact absurd hnone (hearlier q (List.mem_of_getElem? hq))
        · rfl
    · intro p
      simp [List.findIdxs_append, h.families p, hparent]
  | some p =>
    have hknown : p ∈ known := by
      by_contra hp
      exact hr (.inr ⟨p, hparent, hp⟩)
    refine ⟨{ found with families := found.families.add p passed.length }, ?_, ?_, ?_⟩
    · simp only [survey, hparent, if_pos hknown]
    · intro i id
      rw [h.root]
      constructor
      · rintro ⟨q, hq, htop⟩
        exact ⟨q, getElem?_append_singleton_eq_some.mpr (.inl hq), htop⟩
      · rintro ⟨q, hq, hnone, hid⟩
        rcases getElem?_append_singleton_eq_some.mp hq with hq | ⟨-, rfl⟩
        · exact ⟨q, hq, hnone, hid⟩
        · cases hparent.symm.trans hnone
    · intro q
      rw [Families.of_add, List.findIdxs_append, h.families q, List.findIdxs_singleton]
      by_cases hq : p = q
      · simp [hparent, hq]
      · simp [hparent, hq]

theorem Surveyed.survey_secondRoot {known : List String} {passed : List Record} {found : Survey}
    {first r : Record} (h : Surveyed passed found) (place : Nat) (hr : r.parentId = none)
    (hmem : first ∈ passed) (hfirst : first.parentId = none) :
    survey known found r place = .error (.multipleRoots first.id r.id) := by
  obtain ⟨i, hi⟩ := List.mem_iff_getElem?.mp hmem
  have hroot : found.root = some (i, first.id) := h.root.mpr ⟨first, hi, hfirst, rfl⟩
  simp only [survey, hr, hroot]

theorem survey_strayParent {known : List String} {r : Record} {p : String} (found : Survey)
    (place : Nat) (hr : r.parentId = some p) (hp : p ∉ known) :
    survey known found r place = .error (.unknownParent r.id p) := by
  simp only [survey, hr, if_neg hp]

/-- The second pass gets past records none of which is misplaced, and has noted them then. -/
theorem surveyFrom_of_clean {known : List String} {before : List Record}
    (h : Clean (Misplaced known) before) :
    ∃ found, Surveyed before found ∧ ∀ rest,
      surveyFrom known ⟨none, []⟩ 0 (before ++ rest) =
        surveyFrom known found before.length rest := by
  induction before using List.reverseRecOn with
  | nil => exact ⟨_, surveyed_nil, fun _ => rfl⟩
  | append_singleton before r ih =>
    obtain ⟨hclean, hr⟩ := clean_concat_iff.mp h
    obtain ⟨found, hfound, hpass⟩ := ih hclean
    obtain ⟨found', hstep, hfound'⟩ := hfound.step hr
    refine ⟨found', hfound', fun rest => ?_⟩
    rw [List.append_assoc, List.singleton_append, hpass, surveyFrom, hstep, List.length_append,
      List.length_singleton]

theorem surveyFrom_eq_ok {known : List String} {rs : List Record}
    (h : Clean (Misplaced known) rs) :
    ∃ found, Surveyed rs found ∧ surveyFrom known ⟨none, []⟩ 0 rs = .ok found := by
  obtain ⟨found, hfound, hpass⟩ := surveyFrom_of_clean h
  refine ⟨found, hfound, ?_⟩
  rw [← List.append_nil rs, hpass, surveyFrom]

theorem surveyFrom_eq_error {known : List String} {rs before : List Record} {r : Record}
    {fault : Fault} (h : FirstOffender (Misplaced known) rs before r)
    (hrefused : ∀ found, Surveyed before found → ∀ place,
      survey known found r place = .error fault) :
    surveyFrom known ⟨none, []⟩ 0 rs = .error fault := by
  obtain ⟨after, rfl⟩ := h.leading
  obtain ⟨found, hfound, hpass⟩ := surveyFrom_of_clean h.clean
  rw [List.append_assoc, hpass, List.singleton_append, surveyFrom, hrefused found hfound]

end Downline.Record
