import Downline.Proofs.Token.Shadowing

/-!
# Tokens that both exports carry

A style sheet and a theme are made from the same documents. Colours, shadows and font families have
a section in a theme (`Origin.themeSection?`), and what is written there is compared with what is
declared: the tokens of the section, in the order of their declarations and each as often, less the
shadows that are `null` or the empty text (`ThemeSection.written_eq_filter`).

In the other sections both exports leave such values out, or neither does. An elevation is judged by
the theme alone: the style sheet declares a property for it that has no value. So the exports carry
the same tokens exactly if no elevation is `null` or empty (`carried`).

The type scale is left aside. A style sheet declares each entry of a step, and a theme has one entry
for the whole step, if it has a size. What becomes of tokens under one key is told by the shadowing
of names and not here.
-/

namespace Downline.Token

open Json

/-! ## What a theme takes -/

namespace Origin

/-- The section of a theme that takes the tokens of a section of the documents. -/
def themeSection? : Origin → Option ThemeSection
  | palette _ => some .colors
  | textColor _ => some .colors
  | elevation _ => some .boxShadow
  | fontFamily _ => some .fontFamily
  | scale _ _ => none

/-- A token that a style sheet declares and a theme leaves out: a shadow without a value. -/
def IsBlankShadow (v : Value) : Origin → Prop
  | elevation _ => v = .null ∨ v = .text ""
  | _ => False

end Origin

theorem isNull_or_isEmptyText_iff {v : Value} :
    (v.isNull || v.isEmptyText) = true ↔ v = .null ∨ v = .text "" := by
  cases v with
  | text s => simp [Value.isNull, Value.isEmptyText]
  | null | bool | number | list | object => simp [Value.isNull, Value.isEmptyText]

instance (v : Value) (o : Origin) : Decidable (o.IsBlankShadow v) :=
  match o with
  | .elevation _ => decidable_of_iff _ isNull_or_isEmptyText_iff
  | .palette _ | .textColor _ | .fontFamily _ | .scale _ _ => .isFalse id

/-- Whether a token is one that a section of a theme takes. -/
def ThemeSection.Takes (s : ThemeSection) (token : Origin × Value) : Prop :=
  token.1.themeSection? = some s ∧ ¬token.1.IsBlankShadow token.2

instance (s : ThemeSection) (token : Origin × Value) : Decidable (s.Takes token) :=
  inferInstanceAs (Decidable (_ ∧ _))

/-! ## What is declared and what is written -/

section Parts

variable {α : Type} {s : ThemeSection} {token : α → Origin × Value}

theorem filter_takes_of_forall (h : ∀ a, s.Takes (token a)) (l : List α) :
    (l.map token).filter (s.Takes ·) = l.map token := by
  refine List.filter_eq_self.mpr fun t ht => ?_
  obtain ⟨a, -, rfl⟩ := List.mem_map.mp ht
  exact decide_eq_true (h a)

theorem filter_takes_of_section_ne (h : ∀ a, (token a).1.themeSection? ≠ some s) (l : List α) :
    (l.map token).filter (s.Takes ·) = [] := by
  refine List.filter_eq_nil_iff.mpr fun t ht htakes => ?_
  obtain ⟨a, -, rfl⟩ := List.mem_map.mp ht
  exact h a (of_decide_eq_true htakes).1

end Parts

/-- The type scale is taken into no section. -/
theorem filter_takes_scale (s : ThemeSection) (steps : Entries) :
    (steps.flatMap fun (step, spec) => spec.entries.map fun (entry, v) =>
      (Origin.scale step entry, v)).filter (s.Takes ·) = [] := by
  rw [List.filter_flatMap]
  refine List.flatMap_eq_nil_iff.mpr fun step _ => ?_
  exact filter_takes_of_section_ne (fun _ => by simp [Origin.themeSection?]) _

/-- Shadows are taken unless they are blank. -/
theorem filter_takes_elevation (elevations : Entries) :
    (elevations.map fun (name, v) => (Origin.elevation name, v)).filter
        (ThemeSection.boxShadow.Takes ·) =
      elevations.filterMap fun (name, v) =>
        if v.isNull || v.isEmptyText then none else some (.elevation name, v) := by
  rw [List.filter_map, ← List.filterMap_eq_map, List.filterMap_filter]
  congr 1
  funext entry
  obtain ⟨name, v⟩ := entry
  by_cases h : (v.isNull || v.isEmptyText) = true
  · have hblank : (Origin.elevation name).IsBlankShadow v := isNull_or_isEmptyText_iff.mp h
    simp [h, ThemeSection.Takes, hblank]
  · have hblank : ¬(Origin.elevation name).IsBlankShadow v := fun hb =>
      h (isNull_or_isEmptyText_iff.mpr hb)
    simp [h, ThemeSection.Takes, hblank, Origin.themeSection?]

/-- **What a section takes is what is declared**, in the order of the declarations, less the blank
shadows. -/
theorem ThemeSection.written_eq_filter (sources : Sources) {s : ThemeSection} (hs : s ≠ .fontSize) :
    s.written sources = (tokens sources).filter (s.Takes ·) := by
  simp only [tokens, List.filter_append, filter_takes_scale, List.append_nil]
  cases s with
  | colors =>
    rw [filter_takes_of_forall fun _ => ⟨rfl, id⟩, filter_takes_of_forall fun _ => ⟨rfl, id⟩,
      filter_takes_of_section_ne fun _ => by simp [Origin.themeSection?],
      filter_takes_of_section_ne fun _ => by simp [Origin.themeSection?], List.append_nil,
      List.append_nil]
    rfl
  | fontFamily =>
    rw [filter_takes_of_section_ne fun _ => by simp [Origin.themeSection?],
      filter_takes_of_section_ne fun _ => by simp [Origin.themeSection?],
      filter_takes_of_section_ne fun _ => by simp [Origin.themeSection?],
      filter_takes_of_forall fun _ => ⟨rfl, id⟩]
    rfl
  | fontSize => exact absurd rfl hs
  | boxShadow =>
    rw [filter_takes_of_section_ne fun _ => by simp [Origin.themeSection?],
      filter_takes_of_section_ne fun _ => by simp [Origin.themeSection?],
      filter_takes_elevation,
      filter_takes_of_section_ne fun _ => by simp [Origin.themeSection?], List.append_nil]
    rfl

/-! ## What both carry -/

/-- How the style sheet and the theme of documents compare, but for font sizes. -/
structure Carried (sources : Sources) (varPrefix : String) : Prop where
  /-- The style sheet declares the tokens, one a line and in order, before the components. -/
  declared : stylesheetLines sources varPrefix =
    [":root \x7b"] ++ (tokens sources).map (tokenLine varPrefix)
      ++ (sources.componentDeclarations varPrefix).map (ComponentProperty.line varPrefix)
      ++ ["\x7d", ""]
  /-- A section of the theme is put together from what is written into it. -/
  sections : ∀ s : ThemeSection, (themeExtension sources varPrefix).get? s.title =
    some (.object (gather ((s.written sources).map fun t => (s.key varPrefix t.1.themeName, t.2))))
  /-- What is written is what is declared and not blank, in the same order and as often. -/
  written : ∀ s : ThemeSection, s ≠ .fontSize →
    s.written sources = (tokens sources).filter (s.Takes ·)
  /-- Each token of the documents is declared. -/
  declares_iff : ∀ (o : Origin) (v : Value), (o, v) ∈ tokens sources ↔ o.Holds sources v
  /-- A token that has a section is written there unless it is a blank shadow. -/
  writes_iff : ∀ (o : Origin) (v : Value) (s : ThemeSection), o.themeSection? = some s →
    ((o, v) ∈ s.written sources ↔ o.Holds sources v ∧ ¬o.IsBlankShadow v)
  /-- So the same tokens are declared and written exactly if no shadow is blank. -/
  same_iff : (∀ (o : Origin) (v : Value) (s : ThemeSection), o.themeSection? = some s →
      ((o, v) ∈ tokens sources ↔ (o, v) ∈ s.written sources)) ↔
    ∀ (name : String) (v : Value), (Origin.elevation name).Holds sources v →
      v ≠ .null ∧ v ≠ .text ""

theorem Origin.themeSection?_ne_fontSize {o : Origin} {s : ThemeSection}
    (h : o.themeSection? = some s) : s ≠ .fontSize := by
  rintro rfl
  cases o <;> cases h

theorem mem_written_iff {sources : Sources} {o : Origin} {v : Value} {s : ThemeSection}
    (h : o.themeSection? = some s) :
    (o, v) ∈ s.written sources ↔ o.Holds sources v ∧ ¬o.IsBlankShadow v := by
  rw [s.written_eq_filter sources (Origin.themeSection?_ne_fontSize h), List.mem_filter,
    decide_eq_true_iff, mem_tokens_iff]
  exact and_congr_right fun _ => and_iff_right h

/-- **Both exports carry the same tokens, but for blank shadows**: an elevation that is `null` or
the empty text is declared and has no entry in the theme. -/
theorem carried (sources : Sources) (varPrefix : String) : Carried sources varPrefix where
  declared := stylesheetLines_eq sources varPrefix
  sections s := by
    rw [← ThemeSection.pairs_eq]
    exact get?_themeExtension s
  written _ hs := ThemeSection.written_eq_filter sources hs
  declares_iff _ _ := mem_tokens_iff
  writes_iff _ _ _ hs := mem_written_iff hs
  same_iff := by
    constructor
    · intro hsame name v hholds
      have hwritten := (hsame (.elevation name) v .boxShadow rfl).mp (mem_tokens_iff.mpr hholds)
      exact not_or.mp ((mem_written_iff rfl).mp hwritten).2
    · intro hshadows o v s hs
      rw [mem_tokens_iff, mem_written_iff hs, iff_self_and]
      intro hholds
      cases o with
      | elevation name => exact not_or.mpr (hshadows name v hholds)
      | palette | textColor | fontFamily | scale => exact id

/-- Documents with a shadow that is the empty text. -/
def shadowless : Sources where
  colors := .object [("elevation", .object [("flat", .text "")])]
  typography := .object []
  components := .object []

/-- The shadow is declared without a value, and the theme has no entry for it. -/
theorem carried_shadowless :
    (Origin.elevation "flat").Holds shadowless (.text "") ∧
    stylesheet shadowless "p" = ":root \x7b\n  --p-elevation-flat: ;\n\x7d\n" ∧
    (themeExtension shadowless "p").get? "boxShadow" = some (.object []) ∧
    ¬∀ (o : Origin) (v : Value) (s : ThemeSection), o.themeSection? = some s →
      ((o, v) ∈ tokens shadowless ↔ (o, v) ∈ s.written shadowless) := by
  have hholds : (Origin.elevation "flat").Holds shadowless (.text "") := .head _
  refine ⟨hholds, by decide +kernel, rfl, fun hsame => ?_⟩
  have hwritten := (hsame _ _ .boxShadow rfl).mp (mem_tokens_iff.mpr hholds)
  exact absurd hwritten List.not_mem_nil

end Downline.Token
