import Downline.Proofs.Token.Perform

/-!
# Exports read payloads only

The schema and the metadata of a document are no tokens. A library takes them off before it exports;
the exports themselves can also be made from whole documents. It comes to the same: both exports
look a document up by key, and neither of the two keys is among those that they look for. So
documents that hold the same under all other keys have the same exports, text for text
(`SamePayload`), and a document holds what its payload holds.

Taking the two entries off leaves all others as they are and in their order (`KeepsPayload`), which
the order of declarations depends on. Nothing is said about documents that are no bundles.
-/

namespace Downline.Token

open Json Library

/-! ## What is looked up -/

/-- Two documents hold the same under every key but those of the schema and the metadata. -/
def SamePayload (d d' : Value) : Prop :=
  ∀ key, key ≠ Bundle.schemaKey → key ≠ Bundle.metadataKey → d.get? key = d'.get? key

theorem SamePayload.sectionEntries_eq {d d' : Value} (h : SamePayload d d') {key : String}
    (hschema : key ≠ Bundle.schemaKey) (hmetadata : key ≠ Bundle.metadataKey) :
    sectionEntries d key = sectionEntries d' key := by
  rw [sectionEntries, sectionEntries, h key hschema hmetadata]

namespace Sources

/-- Documents that are rendered together and hold the same, each as its counterpart. -/
structure SamePayloads (s s' : Sources) : Prop where
  colors : SamePayload s.colors s'.colors
  typography : SamePayload s.typography s'.typography
  components : SamePayload s.components s'.components

/-- All that the exports look up in documents is the same. -/
structure SameSections (s s' : Sources) : Prop where
  palette : sectionEntries s.colors "palette" = sectionEntries s'.colors "palette"
  textColors : sectionEntries s.colors "typography_support" =
    sectionEntries s'.colors "typography_support"
  elevation : sectionEntries s.colors "elevation" = sectionEntries s'.colors "elevation"
  fontFamilies : sectionEntries s.typography "font_families" =
    sectionEntries s'.typography "font_families"
  scale : sectionEntries s.typography "scale" = sectionEntries s'.typography "scale"
  components : s.components.get? "components" = s'.components.get? "components"

variable {s s' : Sources}

/-- No section stands under the key of the schema or of the metadata. -/
theorem SamePayloads.sameSections (h : s.SamePayloads s') : s.SameSections s' where
  palette := h.colors.sectionEntries_eq (by decide) (by decide)
  textColors := h.colors.sectionEntries_eq (by decide) (by decide)
  elevation := h.colors.sectionEntries_eq (by decide) (by decide)
  fontFamilies := h.typography.sectionEntries_eq (by decide) (by decide)
  scale := h.typography.sectionEntries_eq (by decide) (by decide)
  components := h.components "components" (by decide) (by decide)

namespace SameSections

variable (h : s.SameSections s') (varPrefix : String)

include h

theorem tokenProperties_eq : tokenProperties s varPrefix = tokenProperties s' varPrefix := by
  simp only [tokenProperties, specProperties, plainProperties, scaleProperties, h.palette,
    h.textColors, h.elevation, h.fontFamilies, h.scale]

theorem allComponentProperties_eq (meaning : String → Option String) :
    allComponentProperties meaning s.components =
      allComponentProperties meaning s'.components := by
  simp only [allComponentProperties, sectionEntries, h.components]

/-- Documents in which the same is looked up have the same style sheet. -/
theorem stylesheet_eq : stylesheet s varPrefix = stylesheet s' varPrefix := by
  rw [stylesheet, stylesheet, stylesheetLines, stylesheetLines, h.tokenProperties_eq varPrefix,
    h.allComponentProperties_eq]

/-- And the same theme. -/
theorem themeExtension_eq : themeExtension s varPrefix = themeExtension s' varPrefix := by
  simp only [themeExtension, themeColors, themeFontFamilies, themeFontSizes, themeBorderRadii,
    themeShadows, h.palette, h.textColors, h.elevation, h.fontFamilies, h.scale, h.components]

end SameSections

end Sources

/-! ## What is taken off -/

theorem get?_erase {e : Entries} {key erased : String} (h : key ≠ erased) :
    Entries.get? (e.erase erased) key = Entries.get? e key :=
  Files.Store.lookup_filter_ne h e

namespace Bundle

/-- A bundle keeps all entries of its document but those of the schema and the metadata, in their
order. -/
structure KeepsPayload (document : Value) (b : Bundle) : Prop where
  entries : ∃ entries, document = .object entries ∧
    b.payload = entries.filter fun (key, _) => key != "$schema" && key != "meta"
  same : SamePayload b.document document

theorem keepsPayload {category : String} {document : Value} {b : Bundle}
    (h : ofValue category document = .ok b) : KeepsPayload document b := by
  cases document with
  | object entries =>
    have hpayload : b.payload = payloadOf entries := by
      rw [ofValue] at h
      split at h
      next => cases h
      next =>
        cases h
        rfl
    refine ⟨⟨entries, rfl, ?_⟩, fun key hschema hmetadata => ?_⟩
    · rw [hpayload, payloadOf, Entries.erase, Entries.erase, List.filter_filter]
      refine List.filter_congr fun entry _ => ?_
      rw [Bool.and_comm]
      rfl
    · have hget : Entries.get? b.payload key = Entries.get? entries key := by
        rw [hpayload, payloadOf, get?_erase hmetadata, get?_erase hschema]
      exact hget
  | null | bool | number | text | list => cases h

end Bundle

/-! ## Exports -/

/-- **Exports of bundles are exports of their documents**, whatever stands under the keys of the
schema and the metadata and wherever: both texts are the same, for any prefix. So a library that
sees the documents as these bundles renders what can be rendered from the whole documents. -/
theorem exports_of_payloads {colors typography components : Value} {c t k : Bundle}
    (hcolors : Bundle.ofValue "colors" colors = .ok c)
    (htypography : Bundle.ofValue "typography" typography = .ok t)
    (hcomponents : Bundle.ofValue "components" components = .ok k) :
    let whole : Sources := ⟨colors, typography, components⟩
    let payloads : Sources := ⟨c.document, t.document, k.document⟩
    (∀ varPrefix, stylesheet payloads varPrefix = stylesheet whole varPrefix ∧
      themeModule (themeExtension payloads varPrefix) =
        themeModule (themeExtension whole varPrefix)) ∧
    (∀ (lib : Library) (w : World), w.sees lib "colors" = .ok c →
      w.sees lib "typography" = .ok t → w.sees lib "components" = .ok k →
      (perform lib.exports w).1 = .ok ⟨stylesheet whole lib.varPrefix,
        themeModule (themeExtension whole lib.varPrefix)⟩) ∧
    c.KeepsPayload colors ∧ t.KeepsPayload typography ∧ k.KeepsPayload components := by
  intro whole payloads
  have hc := Bundle.keepsPayload hcolors
  have ht := Bundle.keepsPayload htypography
  have hk := Bundle.keepsPayload hcomponents
  have hpayloads : payloads.SamePayloads whole := ⟨hc.same, ht.same, hk.same⟩
  have hsame := hpayloads.sameSections
  refine ⟨fun varPrefix => ⟨hsame.stylesheet_eq varPrefix, ?_⟩, ?_, hc, ht, hk⟩
  · rw [hsame.themeExtension_eq varPrefix]
  · intro lib w hseesColors hseesTypography hseesComponents
    rw [perform_exports, exportsOf, hseesColors, hseesTypography, hseesComponents,
      ← hsame.stylesheet_eq, ← hsame.themeExtension_eq]
    rfl

/-- Documents with a schema and metadata in front, in between and behind. -/
def marked : Sources where
  colors := .object [("palette", .object [("ink", .object [("value", .text "#111")])]),
    ("meta", .object [("palette", .null)]), ("elevation", .object [("flat", .text "none")]),
    ("$schema", .text "colors")]
  typography := .object [("meta", .text "1"), ("font_families", .object [("sans_serif",
    .object [("value", .text "Inter")])])]
  components := .object [("$schema", .null), ("components", .object [("card",
    .object [("border_radius", .text "4px"), ("ink", .text "\x7bcolors.palette.ink.value\x7d")])])]

/-- The bundles that the documents make. -/
def unmarked : Shelf := [
  ("colors", ⟨"colors", some "colors", [("palette", .null)],
    [("palette", .object [("ink", .object [("value", .text "#111")])]),
      ("elevation", .object [("flat", .text "none")])]⟩),
  ("typography", ⟨"typography", none, [],
    [("font_families", .object [("sans_serif", .object [("value", .text "Inter")])])]⟩),
  ("components", ⟨"components", none, [], [("components", .object [("card",
    .object [("border_radius", .text "4px"),
      ("ink", .text "\x7bcolors.palette.ink.value\x7d")])])]⟩)]

theorem exports_of_payloads_marked :
    ∃ c t k : Bundle, Bundle.ofValue "colors" marked.colors = .ok c ∧
      Bundle.ofValue "typography" marked.typography = .ok t ∧
      Bundle.ofValue "components" marked.components = .ok k ∧
      unmarked = [("colors", c), ("typography", t), ("components", k)] ∧
      stylesheet ⟨c.document, t.document, k.document⟩ "p" = stylesheet marked "p" ∧
      themeModule (themeExtension ⟨c.document, t.document, k.document⟩ "p") =
        themeModule (themeExtension marked "p") ∧
      (perform (Library.exports ⟨"tokens", "p"⟩) ⟨unmarked, ⟨[], []⟩⟩).1 =
        .ok ⟨stylesheet marked "p", themeModule (themeExtension marked "p")⟩ ∧
      c.KeepsPayload marked.colors ∧ t.KeepsPayload marked.typography ∧
      k.KeepsPayload marked.components := by
  have hcolors : Bundle.ofValue "colors" marked.colors = .ok _ := rfl
  have htypography : Bundle.ofValue "typography" marked.typography = .ok _ := rfl
  have hcomponents : Bundle.ofValue "components" marked.components = .ok _ := rfl
  obtain ⟨htexts, hexports, hc, ht, hk⟩ := exports_of_payloads hcolors htypography hcomponents
  obtain ⟨hstylesheet, htheme⟩ := htexts "p"
  exact ⟨_, _, _, hcolors, htypography, hcomponents, rfl, hstylesheet, htheme,
    hexports ⟨"tokens", "p"⟩ ⟨unmarked, ⟨[], []⟩⟩ rfl rfl rfl, hc, ht, hk⟩

end Downline.Token
