import Downline.Token.Stylesheet

/-!
# What becomes of the references in a text

A text is rewritten if it falls into characters that are no braces and groups of braces, and every
group holds a reference that means something (`Rewritten`). The relation says nothing of the order
in which braces are looked for, and it has no case for a brace that is left over. The text of a
component is exactly the rewritten one, where a reference counts only if it means a name without
braces (`componentText?_eq_some_iff`).
-/

namespace Downline.Token

open Json

theorem isBrace_eq_true_iff {c : Char} : isBrace c = true ↔ c = '\x7b' ∨ c = '\x7d' := by
  rw [isBrace, Bool.or_eq_true, beq_iff_eq, beq_iff_eq]

/-- What is true of a character and of neither brace tells it from them. -/
theorem isBrace_eq_false_of (p : Char → Prop) (hopen : ¬ p '\x7b') (hclose : ¬ p '\x7d') {c : Char}
    (h : p c) : isBrace c = false := by
  rw [Bool.eq_false_iff]
  intro hbrace
  rcases isBrace_eq_true_iff.mp hbrace with rfl | rfl
  · exact hopen h
  · exact hclose h

/-- True of texts without braces. -/
def BraceFree (cs : List Char) : Prop := ∀ c ∈ cs, isBrace c = false

theorem braceFree_nil : BraceFree [] := fun _ h => nomatch h

theorem braceFree_cons {c : Char} {cs : List Char} :
    BraceFree (c :: cs) ↔ isBrace c = false ∧ BraceFree cs := List.forall_mem_cons

theorem braceFree_append {as bs : List Char} :
    BraceFree (as ++ bs) ↔ BraceFree as ∧ BraceFree bs := List.forall_mem_append

theorem any_isBrace_eq_false {cs : List Char} : cs.any isBrace = false ↔ BraceFree cs := by
  simp [BraceFree]

instance (cs : List Char) : Decidable (BraceFree cs) :=
  decidable_of_iff (cs.any isBrace = false) any_isBrace_eq_false

/-- A text and what comes of it if every reference in it is replaced by a name that it means. -/
inductive Rewritten (means : String → String → Prop) : List Char → List Char → Prop where
  | nil : Rewritten means [] []
  | char {c : Char} {cs out : List Char} (plain : isBrace c = false)
      (rest : Rewritten means cs out) : Rewritten means (c :: cs) (c :: out)
  | group {reference cs out : List Char} {name : String} (filled : reference ≠ [])
      (plain : BraceFree reference) (known : means (String.ofList reference) name)
      (rest : Rewritten means cs out) :
      Rewritten means ('\x7b' :: reference ++ '\x7d' :: cs)
        ("var(".toList ++ name.toList ++ [')'] ++ out)

theorem Rewritten.mono {means means' : String → String → Prop}
    (h : ∀ reference name, means reference name → means' reference name) {cs out : List Char}
    (hrewritten : Rewritten means cs out) : Rewritten means' cs out := by
  induction hrewritten with
  | nil => exact .nil
  | char plain _ ih => exact .char plain ih
  | group filled plain known _ ih => exact .group filled plain (h _ _ known) ih

/-! ## Groups -/

theorem spanToBrace_append {reference rest : List Char} (h : BraceFree reference) :
    spanToBrace (reference ++ '\x7d' :: rest) = (reference, '\x7d' :: rest) := by
  induction reference with
  | nil => rfl
  | cons c cs ih =>
    obtain ⟨hc, hcs⟩ := braceFree_cons.mp h
    rw [List.cons_append, spanToBrace, hc, ih hcs]
    rfl

theorem append_spanToBrace (cs : List Char) : (spanToBrace cs).1 ++ (spanToBrace cs).2 = cs := by
  induction cs with
  | nil => rfl
  | cons c cs ih =>
    rw [spanToBrace]
    split
    next => rfl
    next => rw [List.cons_append, ih]

theorem braceFree_spanToBrace (cs : List Char) : BraceFree (spanToBrace cs).1 := by
  induction cs with
  | nil => exact braceFree_nil
  | cons c cs ih =>
    rw [spanToBrace]
    split
    next => exact braceFree_nil
    next h => exact braceFree_cons.mpr ⟨Bool.eq_false_iff.mpr h, ih⟩

/-! ## Replacing -/

variable {meaning : String → Option String}

theorem replaceReferences_char {c : Char} (hc : isBrace c = false) (cs : List Char) :
    replaceReferences meaning (c :: cs) = c :: replaceReferences meaning cs := by
  have hne : c ≠ '\x7b' := by
    rintro rfl
    cases hc
  rw [replaceReferences, if_neg hne]

/-- A group whose reference means something is replaced. -/
theorem replaceReferences_group {reference : List Char} {name : String} (hne : reference ≠ [])
    (hplain : BraceFree reference) (hmeaning : meaning (String.ofList reference) = some name)
    (cs : List Char) :
    replaceReferences meaning ('\x7b' :: reference ++ '\x7d' :: cs) =
      "var(".toList ++ name.toList ++ [')'] ++ replaceReferences meaning cs := by
  obtain ⟨d, ds, rfl⟩ := List.exists_cons_of_ne_nil hne
  rw [List.cons_append, replaceReferences, if_pos rfl]
  split
  next d' ds' after hspan =>
    rw [spanToBrace_append hplain] at hspan
    cases hspan
    simp only [hmeaning]
  next hspan => exact absurd (spanToBrace_append hplain) (hspan d ds cs)

/-- What is replaced without a brace left over has been rewritten. -/
theorem rewritten_of_braceFree (cs : List Char) (h : BraceFree (replaceReferences meaning cs)) :
    Rewritten (fun reference name => meaning reference = some name ∧ BraceFree name.toList) cs
      (replaceReferences meaning cs) := by
  fun_induction replaceReferences meaning cs with
  | case1 => exact .nil
  | case2 rest d ds after hs reference group ih =>
    obtain ⟨hgroup, hafter⟩ := braceFree_append.mp h
    have hrest : rest = (d :: ds) ++ '\x7d' :: after := by
      rw [← append_spanToBrace rest, hs]
    have hplain : BraceFree (d :: ds) := by
      have hspan := braceFree_spanToBrace rest
      rwa [hs] at hspan
    cases hmeaning : meaning (String.ofList (d :: ds)) with
    | none =>
      -- A group that means nothing stays, and so does its brace.
      simp only [group, reference, hmeaning] at hgroup
      cases (braceFree_cons.mp hgroup).1
    | some name =>
      simp only [group, reference, hmeaning] at hgroup ⊢
      have hname : BraceFree name.toList :=
        (braceFree_append.mp (braceFree_append.mp hgroup).1).2
      rw [hrest]
      exact .group (List.cons_ne_nil d ds) hplain ⟨hmeaning, hname⟩ (ih hafter)
  | case3 rest hs ih => cases (braceFree_cons.mp h).1
  | case4 c rest hc ih =>
    obtain ⟨hplain, hrest⟩ := braceFree_cons.mp h
    exact .char hplain (ih hrest)

theorem replaceReferences_of_rewritten {cs out : List Char}
    (h : Rewritten (fun reference name => meaning reference = some name) cs out) :
    replaceReferences meaning cs = out := by
  induction h with
  | nil => rw [replaceReferences]
  | char plain _ ih => rw [replaceReferences_char plain, ih]
  | group filled plain known _ ih => rw [replaceReferences_group filled plain known, ih]

/-- Names without braces bring none into a text. -/
theorem braceFree_of_rewritten {means : String → String → Prop}
    (hnames : ∀ reference name, means reference name → BraceFree name.toList)
    {cs out : List Char} (h : Rewritten means cs out) : BraceFree out := by
  induction h with
  | nil => exact braceFree_nil
  | char plain _ ih => exact braceFree_cons.mpr ⟨plain, ih⟩
  | group _ _ known _ ih =>
    have hopen : BraceFree "var(".toList := by decide
    have hclose : BraceFree [')'] := by decide
    exact braceFree_append.mpr
      ⟨braceFree_append.mpr ⟨braceFree_append.mpr ⟨hopen, hnames _ _ known⟩, hclose⟩, ih⟩

/-- **A component's text is its text rewritten**, and it has none if a brace would be left over. -/
theorem componentText?_eq_some_iff {s t : String} :
    componentText? meaning (.text s) = some t ↔
      Rewritten (fun reference name => meaning reference = some name ∧ BraceFree name.toList)
        s.toList t.toList := by
  rw [componentText?]
  constructor
  · intro h
    split at h
    next => cases h
    next hbraces =>
      cases h
      rw [String.toList_ofList]
      exact rewritten_of_braceFree _ (any_isBrace_eq_false.mp (Bool.eq_false_iff.mpr hbraces))
  · intro h
    have hout := replaceReferences_of_rewritten (h.mono fun _ _ hmeans => hmeans.1)
    have hplain := any_isBrace_eq_false.mpr (braceFree_of_rewritten (fun _ _ hmeans => hmeans.2) h)
    simp only [hout, hplain, Bool.false_eq_true, if_false, String.ofList_toList]

/-! ## Values below components -/

mutual

/-- The values that are no objects below a value, each with the sanitized keys that lead to it. -/
def leaves (path : List String) : Value → List (List String × Value)
  | .object entries => leavesOfEntries path entries
  | v => [(path, v)]

def leavesOfEntries (path : List String) : List (String × Value) → List (List String × Value)
  | [] => []
  | (key, v) :: entries => leaves (path ++ [sanitize key]) v ++ leavesOfEntries path entries

end

/-- The values that are no objects below all components. -/
def componentLeaves (components : Value) : List (List String × Value) :=
  (sectionEntries components "components").flatMap fun (name, spec) =>
    leavesOfEntries [sanitize name] spec.entries

/-- The property that a leaf becomes. -/
def leafProperty? (meaning : String → Option String) (leaf : List String × Value) :
    Option ComponentProperty :=
  (componentText? meaning leaf.2).map (⟨leaf.1, ·⟩)

mutual

theorem componentProperties_eq (path : List String) (v : Value) :
    componentProperties meaning path v = (leaves path v).filterMap (leafProperty? meaning) := by
  cases v with
  | object entries => rw [componentProperties, leaves, componentEntries_eq]
  | null | bool | number | text | list =>
    simp only [componentProperties, leaves, leafProperty?, List.filterMap_cons, List.filterMap_nil]
    cases componentText? meaning _ <;> rfl

theorem componentEntries_eq (path : List String) (entries : List (String × Value)) :
    componentEntries meaning path entries =
      (leavesOfEntries path entries).filterMap (leafProperty? meaning) := by
  cases entries with
  | nil => rfl
  | cons entry entries =>
    rw [componentEntries, leavesOfEntries, List.filterMap_append, componentProperties_eq,
      componentEntries_eq]

end

/-- Components have one property for every leaf that has a text. -/
theorem allComponentProperties_eq (components : Value) :
    allComponentProperties meaning components =
      (componentLeaves components).filterMap (leafProperty? meaning) := by
  rw [allComponentProperties, componentLeaves, List.filterMap_flatMap]
  simp only [componentEntries_eq]

end Downline.Token
