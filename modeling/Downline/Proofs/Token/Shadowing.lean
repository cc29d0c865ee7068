import Downline.Proofs.Token.References
import Downline.Token.Theme
import Mathlib.Data.List.Induction
import Mathlib.Data.List.Nodup

/-!
# Which tokens are shadowed

Names are made from tokens by rewriting, so tokens with different names may come to the same one. A
style sheet then declares a property twice, and a theme has one entry for two tokens; either way
what was written last is left. Nothing reports it.

This module says exactly when that happens. The name of a property tells its `Stem`, the kind of the
token and its sanitized name, and the prefix has no part in it: two declarations have one name
exactly if they have one stem. Components are a kind of their own, so nothing but another component
shadows a component. In a section of a theme it is the rewritten name of the token that counts.

A reference is not told from others with the same stem. It is replaced by the name of its token's
property, and what is declared last under that name is what it denotes.
-/

namespace Downline.Token

open Json

/-! ## What was written last -/

section Last

variable {κ ν : Type} [DecidableEq κ]

/-- The value of the last entry under a key. -/
def last? (entries : List (κ × ν)) (key : κ) : Option ν := entries.reverse.lookup key

/-- A value stands under a key, and behind it there is no other. -/
def LastUnder (entries : List (κ × ν)) (key : κ) (v : ν) : Prop :=
  ∃ before after, entries = before ++ (key, v) :: after ∧ ∀ e ∈ after, e.1 ≠ key

theorem last?_eq_some_iff {entries : List (κ × ν)} {key : κ} {v : ν} :
    last? entries key = some v ↔ LastUnder entries key v := by
  rw [last?, List.lookup_eq_some_iff]
  constructor
  · rintro ⟨after, before, hentries, hafter⟩
    refine ⟨before.reverse, after.reverse, ?_, fun e he => ?_⟩
    · rw [List.reverse_eq_append_iff.mp hentries, List.reverse_cons, List.append_assoc,
        List.singleton_append]
    · exact (bne_iff_ne.mp (hafter e (List.mem_reverse.mp he))).symm
  · rintro ⟨before, after, rfl, hafter⟩
    refine ⟨after.reverse, before.reverse, ?_, fun e he => ?_⟩
    · rw [List.reverse_append, List.reverse_cons, List.append_assoc, List.singleton_append]
    · exact bne_iff_ne.mpr (hafter e (List.mem_reverse.mp he)).symm

theorem lookup_cons_ite (entries : List (κ × ν)) (key key' : κ) (v : ν) :
    ((key', v) :: entries).lookup key = if key' = key then some v else entries.lookup key := by
  rw [List.lookup_cons]
  split
  next h => rw [if_pos (eq_of_beq h).symm]
  next h => rw [if_neg fun hkey => beq_eq_false_iff_ne.mp h hkey.symm]

theorem last?_append_singleton (entries : List (κ × ν)) (key key' : κ) (v : ν) :
    last? (entries ++ [(key', v)]) key = if key' = key then some v else last? entries key := by
  rw [last?, List.reverse_append, List.reverse_singleton, List.singleton_append, lookup_cons_ite,
    last?]

/-- Entries under other keys do not matter. -/
theorem last?_append_of_ne {entries others : List (κ × ν)} {key : κ}
    (h : ∀ e ∈ others, e.1 ≠ key) : last? (entries ++ others) key = last? entries key := by
  induction others using List.reverseRecOn with
  | nil => rw [List.append_nil]
  | append_singleton others e ih =>
    have he : e.1 ≠ key := h e (List.mem_append_right _ (.head _))
    rw [← List.append_assoc, last?_append_singleton, if_neg he,
      ih fun e' he' => h e' (List.mem_append_left _ he')]

/-- Keys may be renamed as long as they stay apart. -/
theorem last?_map {κ' : Type} [DecidableEq κ'] {f : κ → κ'} (hf : Function.Injective f)
    (entries : List (κ × ν)) (key : κ) :
    last? (entries.map fun e => (f e.1, e.2)) (f key) = last? entries key := by
  induction entries using List.reverseRecOn with
  | nil => rfl
  | append_singleton entries e ih =>
    rw [List.map_append, List.map_singleton, last?_append_singleton, last?_append_singleton, ih]
    simp only [hf.eq_iff]

end Last

theorem get?_insert (e : Entries) (key key' : String) (v : Value) :
    Entries.get? (Entries.insert e key' v) key =
      if key' = key then some v else Entries.get? e key := by
  induction e with
  | nil => rw [Entries.insert, Entries.get?, lookup_cons_ite, Entries.get?]
  | cons entry e ih =>
    obtain ⟨k, w⟩ := entry
    rw [Entries.insert]
    split
    next hk =>
      subst hk
      simp only [Entries.get?, lookup_cons_ite]
      split <;> rfl
    next hk =>
      rw [Entries.get?, lookup_cons_ite, ← Entries.get?, ih, Entries.get?, Entries.get?,
        lookup_cons_ite]
      -- The entry in front is another one: if it has the key, then it is not the one put in.
      by_cases hkey : k = key
      · rw [if_pos hkey, if_pos hkey, if_neg fun h => hk (hkey.trans h.symm)]
      · rw [if_neg hkey, if_neg hkey]

/-- An object that is put together entry by entry has the last value under each key. -/
theorem get?_gather (pairs : List (String × Value)) (key : String) :
    Entries.get? (gather pairs) key = last? pairs key := by
  induction pairs using List.reverseRecOn with
  | nil => rfl
  | append_singleton pairs pair ih =>
    rw [last?_append_singleton, ← ih, ← get?_insert, gather, List.foldl_append]
    rfl

/-! ## Declarations -/

/-- What the name of a property is made from, apart from the prefix. -/
structure Stem where
  kind : Kind
  word : String
  deriving DecidableEq, Repr

/-- The name of a property with a stem. -/
def Stem.property (varPrefix : String) (stem : Stem) : String :=
  stem.kind.property varPrefix stem.word

/-- **Properties with one name have one stem.** -/
theorem Stem.property_injective (varPrefix : String) : Function.Injective (property varPrefix) := by
  rintro ⟨kind, word⟩ ⟨kind', word'⟩ h
  obtain ⟨rfl, rfl⟩ := Kind.property_inj.mp h
  rfl

def Origin.stem (o : Origin) : Stem := ⟨o.kind, sanitize o.name⟩

def ComponentProperty.stem (p : ComponentProperty) : Stem :=
  ⟨.component, String.intercalate "-" p.path⟩

/-- What the tokens of documents declare, in order. -/
def tokenDeclarations (sources : Sources) : List (Stem × String) :=
  (tokens sources).map fun t => (t.1.stem, displayText t.2)

/-- What the style sheet of documents declares, in order. -/
def declarations (sources : Sources) (varPrefix : String) : List (Stem × String) :=
  tokenDeclarations sources
    ++ (sources.componentDeclarations varPrefix).map fun p => (p.stem, p.value)

/-- The line of a declaration. -/
def declarationLine (varPrefix : String) (declaration : Stem × String) : String :=
  Property.line (declaration.1.property varPrefix) declaration.2

theorem line_eq_declarationLine (varPrefix : String) (p : ComponentProperty) :
    p.line varPrefix = declarationLine varPrefix (p.stem, p.value) := by
  have hname : "--" ++ varPrefix ++ ("-" ++ Kind.component.word ++ "-") =
      "--" ++ varPrefix ++ "-" ++ Kind.component.word ++ "-" :=
    String.append_assoc.symm.trans (congrArg (· ++ "-") String.append_assoc.symm)
  exact congrArg (fun lead => Property.line (lead ++ String.intercalate "-" p.path) p.value) hname

/-- A style sheet is its declarations, one a line. -/
theorem stylesheetLines_declarations (sources : Sources) (varPrefix : String) :
    stylesheetLines sources varPrefix =
      [":root \x7b"] ++ (declarations sources varPrefix).map (declarationLine varPrefix)
        ++ ["\x7d", ""] := by
  have hcomponents : (sources.componentDeclarations varPrefix).map
      (ComponentProperty.line varPrefix) = ((sources.componentDeclarations varPrefix).map
        fun p => (p.stem, p.value)).map (declarationLine varPrefix) := by
    rw [List.map_map]
    exact List.map_congr_left fun p _ => line_eq_declarationLine varPrefix p
  have htokens : (tokens sources).map (tokenLine varPrefix) =
      (tokenDeclarations sources).map (declarationLine varPrefix) := by
    rw [tokenDeclarations, List.map_map]
    rfl
  rw [stylesheetLines_eq, hcomponents, htokens, declarations, List.map_append]
  simp only [List.append_assoc]

/-- The value that a style sheet gives a property: the one that is declared last. -/
def declaredValue? (sources : Sources) (varPrefix name : String) : Option String :=
  last? ((declarations sources varPrefix).map fun d =>
    (d.1.property varPrefix, d.2)) name

variable {sources : Sources} {varPrefix : String}

/-- What is declared last under a name is what is declared last with its stem. -/
theorem declaredValue?_property (stem : Stem) :
    declaredValue? sources varPrefix (stem.property varPrefix) =
      last? (declarations sources varPrefix) stem :=
  last?_map (Stem.property_injective varPrefix) _ stem

/-- Components shadow no token. -/
theorem declaredValue?_token (o : Origin) :
    declaredValue? sources varPrefix (o.property varPrefix) =
      last? (tokenDeclarations sources) o.stem := by
  have hothers : ∀ e ∈ (sources.componentDeclarations varPrefix).map fun p => (p.stem, p.value),
      e.1 ≠ o.stem := by
    intro e he hstem
    obtain ⟨p, -, rfl⟩ := List.mem_map.mp he
    have hkind : Kind.component = o.kind := congrArg Stem.kind hstem
    cases o <;> cases hkind
  exact (declaredValue?_property o.stem).trans (last?_append_of_ne hothers)

/-! ## Themes -/

/-- The sections of a theme that have entries for tokens. -/
inductive ThemeSection where
  | colors
  | fontFamily
  | fontSize
  | boxShadow
  deriving DecidableEq, Repr

/-- The name under which a theme has a token, without the prefix that a shadow gets. -/
def Origin.themeName : Origin → String
  | palette name => name
  | textColor name => textColorName name
  | elevation name => dashesForUnderscores name
  | fontFamily name => dashesForUnderscores name
  | scale step _ => dashesForUnderscores step

namespace ThemeSection

/-- The key of a section in a theme. -/
def title : ThemeSection → String
  | colors => "colors"
  | fontFamily => "fontFamily"
  | fontSize => "fontSize"
  | boxShadow => "boxShadow"

/-- The key of a token in a section. -/
def key (varPrefix : String) (s : ThemeSection) (name : String) : String :=
  match s with
  | boxShadow => varPrefix ++ "-" ++ name
  | _ => name

/-- The tokens that are written into a section, in order, each with what is written. -/
def written (sources : Sources) : ThemeSection → List (Origin × Value)
  | colors =>
    (specEntries sources.colors "palette").map (fun (name, v) => (.palette name, v))
      ++ (sectionEntries sources.colors "typography_support").map fun (name, v) =>
          (.textColor name, v)
  | fontFamily =>
    (specEntries sources.typography "font_families").map fun (name, v) => (.fontFamily name, v)
  | fontSize =>
    (sectionEntries sources.typography "scale").filterMap fun (step, spec) =>
      (presentValue? spec "font_size").map fun size =>
        (.scale step "font_size", .list [size, fontSizeOptions spec])
  | boxShadow =>
    (sectionEntries sources.colors "elevation").filterMap fun (name, v) =>
      if v.isNull || v.isEmptyText then none else some (.elevation name, v)

/-- What is written into a section, in order. -/
def pairs (sources : Sources) (varPrefix : String) : ThemeSection → List (String × Value)
  | colors => themeColors sources.colors
  | fontFamily => themeFontFamilies sources.typography
  | fontSize => themeFontSizes sources.typography
  | boxShadow => themeShadows sources.colors varPrefix

theorem key_injective (varPrefix : String) (s : ThemeSection) :
    Function.Injective (s.key varPrefix) := by
  intro name name' h
  cases s with
  | boxShadow => exact (String.append_right_inj _).mp h
  | colors | fontFamily | fontSize => exact h

/-- What is written comes from tokens, and each is written under its rewritten name. -/
theorem pairs_eq (sources : Sources) (varPrefix : String) (s : ThemeSection) :
    s.pairs sources varPrefix =
      (s.written sources).map fun t => (s.key varPrefix t.1.themeName, t.2) := by
  cases s with
  | colors =>
    rw [pairs, themeColors, written, List.map_append, List.map_map, List.map_map]
    exact congrArg (· ++ _) (List.map_id _).symm
  | fontFamily =>
    rw [pairs, themeFontFamilies, written, specEntries, List.map_map, List.map_filterMap]
    congr 1
    funext entry
    obtain ⟨name, spec⟩ := entry
    simp only [Option.map_map]
    rfl
  | fontSize =>
    rw [pairs, themeFontSizes, written, List.map_filterMap]
    congr 1
    funext entry
    obtain ⟨step, spec⟩ := entry
    simp only [Option.map_map]
    rfl
  | boxShadow =>
    rw [pairs, themeShadows, written, List.map_filterMap]
    congr 1
    funext entry
    obtain ⟨name, v⟩ := entry
    by_cases h : (v.isNull || v.isEmptyText) = true <;> simp [h, key, Origin.themeName]

theorem mem_entries_of_get? {document v : Value} {key : String}
    (h : document.get? key = some v) : (key, v) ∈ document.entries := by
  cases document with
  | object entries =>
    obtain ⟨before, after, rfl, -⟩ := List.lookup_eq_some_iff.mp h
    exact List.mem_append_right _ (.head _)
  | null | bool | number | text | list => cases h

/-- Only tokens of the documents are written. -/
theorem exists_holds_of_mem_written {s : ThemeSection} {o : Origin} {v : Value}
    (h : (o, v) ∈ s.written sources) : ∃ w, o.Holds sources w := by
  cases s with
  | colors =>
    rcases List.mem_append.mp h with hpalette | htext
    · obtain ⟨⟨name, w⟩, hmem, heq⟩ := List.mem_map.mp hpalette
      cases heq
      exact ⟨_, mem_specEntries_iff.mp hmem⟩
    · obtain ⟨⟨name, w⟩, hmem, heq⟩ := List.mem_map.mp htext
      cases heq
      exact ⟨_, hmem⟩
  | fontFamily =>
    obtain ⟨⟨name, w⟩, hmem, heq⟩ := List.mem_map.mp h
    cases heq
    exact ⟨_, mem_specEntries_iff.mp hmem⟩
  | fontSize =>
    obtain ⟨⟨step, spec⟩, hmem, hsize⟩ := List.mem_filterMap.mp h
    obtain ⟨size, hpresent, heq⟩ := Option.map_eq_some_iff.mp hsize
    cases heq
    have hget : spec.get? "font_size" = some size := (Option.filter_eq_some_iff.mp hpresent).1
    exact ⟨size, spec, hmem, mem_entries_of_get? hget⟩
  | boxShadow =>
    obtain ⟨⟨name, w⟩, hmem, hwritten⟩ := List.mem_filterMap.mp h
    have heq : Origin.elevation name = o := by
      by_cases hempty : (w.isNull || w.isEmptyText) = true
      · simp [hempty] at hwritten
      · simp only [if_neg hempty, Option.some.injEq, Prod.mk.injEq] at hwritten
        exact hwritten.1
    exact ⟨w, heq ▸ hmem⟩

end ThemeSection

/-- The sections of a theme are put together from what is written into them. -/
theorem get?_themeExtension (s : ThemeSection) :
    (themeExtension sources varPrefix).get? s.title =
      some (.object (gather (s.pairs sources varPrefix))) := by
  cases s <;> rfl

/-- A section has what was written last under a name. -/
theorem get?_gather_pairs (s : ThemeSection) (name : String) :
    Entries.get? (gather (s.pairs sources varPrefix)) (s.key varPrefix name) =
      last? ((s.written sources).map fun t => (t.1.themeName, t.2)) name := by
  have hrenamed := last?_map (s.key_injective varPrefix)
    ((s.written sources).map fun t => (t.1.themeName, t.2)) name
  rw [List.map_map] at hrenamed
  rw [get?_gather, ThemeSection.pairs_eq]
  exact hrenamed

/-! ## Shadowing -/

/-- When declarations of a style sheet shadow each other, and what is left. -/
structure StylesheetShadowing (sources : Sources) (varPrefix : String) : Prop where
  /-- The declarations are the lines of the style sheet. -/
  lines : stylesheetLines sources varPrefix =
    [":root \x7b"] ++ (declarations sources varPrefix).map (declarationLine varPrefix)
      ++ ["\x7d", ""]
  /-- Two declarations have one name exactly if they have one stem. -/
  names : ∀ stem stem' : Stem, stem.property varPrefix = stem'.property varPrefix ↔ stem = stem'
  /-- All names are different exactly if all stems are. -/
  distinct : ((declarations sources varPrefix).map fun d => d.1.property varPrefix).Nodup ↔
    ((declarations sources varPrefix).map Prod.fst).Nodup
  /-- A declaration counts unless one with its stem follows. -/
  values : ∀ (stem : Stem) (value : String),
    declaredValue? sources varPrefix (stem.property varPrefix) = some value ↔
      LastUnder (declarations sources varPrefix) stem value
  /-- A reference to a token denotes what the last token with its stem declares. -/
  references : ∀ (o : Origin) (v : Value), o.Holds sources v →
    sources.meaning varPrefix o.path = some (o.property varPrefix) ∧
    ∀ value, declaredValue? sources varPrefix (o.property varPrefix) = some value ↔
      LastUnder (tokenDeclarations sources) o.stem value

/-- When tokens of a section of a theme shadow each other, and what is left. -/
structure ThemeShadowing (sources : Sources) (varPrefix : String) (s : ThemeSection) : Prop where
  /-- The section is put together from the tokens that are written into it. -/
  entries : (themeExtension sources varPrefix).get? s.title =
    some (.object (gather ((s.written sources).map fun t => (s.key varPrefix t.1.themeName, t.2))))
  /-- They are tokens of the documents. -/
  tokens : ∀ t ∈ s.written sources, ∃ v, t.1.Holds sources v
  /-- Two keys are the same exactly if the rewritten names are. -/
  names : ∀ name name' : String, s.key varPrefix name = s.key varPrefix name' ↔ name = name'
  /-- All keys are different exactly if all rewritten names are. -/
  distinct : ((s.written sources).map fun t => s.key varPrefix t.1.themeName).Nodup ↔
    ((s.written sources).map fun t => t.1.themeName).Nodup
  /-- What is written stays unless more is written under the same name. -/
  values : ∀ (name : String) (v : Value),
    Entries.get? (gather ((s.written sources).map fun t => (s.key varPrefix t.1.themeName, t.2)))
        (s.key varPrefix name) = some v ↔
      LastUnder ((s.written sources).map fun t => (t.1.themeName, t.2)) name v

theorem stylesheetShadowing (sources : Sources) (varPrefix : String) :
    StylesheetShadowing sources varPrefix where
  lines := stylesheetLines_declarations sources varPrefix
  names _ _ := (Stem.property_injective varPrefix).eq_iff
  distinct := by
    have hnames := List.nodup_map_iff (l := (declarations sources varPrefix).map Prod.fst)
      (Stem.property_injective varPrefix)
    rwa [List.map_map] at hnames
  values stem _ := by rw [declaredValue?_property, last?_eq_some_iff]
  references o _ hholds :=
    ⟨meaning_path hholds varPrefix, fun _ => by rw [declaredValue?_token, last?_eq_some_iff]⟩

theorem themeShadowing (sources : Sources) (varPrefix : String) (s : ThemeSection) :
    ThemeShadowing sources varPrefix s where
  entries := by
    rw [← ThemeSection.pairs_eq]
    exact get?_themeExtension s
  tokens _ hmem := ThemeSection.exists_holds_of_mem_written hmem
  names _ _ := (s.key_injective varPrefix).eq_iff
  distinct := by
    have hnames := List.nodup_map_iff (l := (s.written sources).map fun t => t.1.themeName)
      (s.key_injective varPrefix)
    rwa [List.map_map] at hnames
  values name _ := by rw [← ThemeSection.pairs_eq, get?_gather_pairs, last?_eq_some_iff]

/-- **Tokens shadow each other exactly if their names are rewritten to the same.** -/
theorem shadowing_exact (sources : Sources) (varPrefix : String) :
    StylesheetShadowing sources varPrefix ∧
      ∀ s : ThemeSection, ThemeShadowing sources varPrefix s :=
  ⟨stylesheetShadowing sources varPrefix, themeShadowing sources varPrefix⟩

/-- Documents with two pairs of tokens whose names are rewritten to the same. -/
def clashing : Sources where
  colors := .object [
    ("palette", .object [("A b", .object [("value", .text "1")]),
      ("a-b", .object [("value", .text "2")]), ("text-x", .object [("value", .text "3")])]),
    ("typography_support", .object [("text.x", .text "4")])]
  typography := .null
  components := .null

/-- A property is declared twice and an entry written twice, and either first value is lost. -/
theorem shadowed_clashing :
    ¬((declarations clashing "p").map fun d => d.1.property "p").Nodup ∧
    (Origin.palette "A b").Holds clashing (.text "1") ∧
    declaredValue? clashing "p" ((Origin.palette "A b").property "p") = some "2" ∧
    (Origin.palette "text-x").Holds clashing (.text "3") ∧
    (Entries.get? (gather (themeColors clashing.colors)) "text-x").bind Value.text? = some "4" :=
  ⟨by decide +kernel, ⟨_, .head _, rfl⟩, by decide +kernel, ⟨_, .tail _ (.tail _ (.head _)), rfl⟩,
    by decide +kernel⟩

end Downline.Token
