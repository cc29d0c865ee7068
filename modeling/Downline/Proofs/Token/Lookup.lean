import Downline.Proofs.Json.Keyed
import Downline.Proofs.Token.References
import Downline.Proofs.Token.Resolution

/-!
# Tokens looked up by their paths

The path of a token begins with its category; what follows is its local path, the keys on the way
to its value with points between them. A lookup takes a path apart at every point and follows the
segments. So it goes the way of the keys if none of them has a point, and then it finds the value
that the style sheet declares (`get_localPath`).

A key with a point comes apart on the way. The lookup then follows its parts, which may lead nowhere
or to another value, while a reference with the same path still means the token: the table of
references is never taken apart.
-/

namespace Downline.Token

open Json

/-! ## Bundles as documents -/

/-- The documents of a style sheet whose colours and typography are bundles. -/
def Bundle.sources (colors typography : Bundle) (components : Value) : Sources :=
  ⟨colors.document, typography.document, components⟩

/-- A bundle has the category that it was made for and keeps the entries of its document apart. -/
theorem Bundle.of_ofValue {category : String} {v : Value} {b : Bundle} (hkeyed : v.Keyed)
    (h : ofValue category v = .ok b) : b.category = category ∧ b.document.Keyed := by
  cases v with
  | object entries =>
    rw [ofValue] at h
    split at h
    next => cases h
    next =>
      cases h
      exact ⟨rfl, (hkeyed.filter _).filter _⟩
  | _ => cases h

/-- A lookup succeeds if the segments lead to a value, and with that value. -/
theorem Bundle.get_eq_ok_iff {b : Bundle} {path : String} {v : Value} :
    b.get path = .ok v ↔ descend b.document (pathSegments path) = .ok v :=
  resolve_eq_ok_iff.trans descend_eq_ok_iff.symm

theorem exists_of_mem_sectionEntries {document w : Value} {key name : String}
    (hkeyed : document.Keyed) (h : (name, w) ∈ sectionEntries document key) :
    ∃ v, document.get? key = some v ∧ v.get? name = some w ∧ w.Keyed := by
  have hsection := get?_of_mem_sectionEntries h
  have hv := hkeyed.of_get? hsection
  exact ⟨_, hsection, hv.get?_of_mem h, hv.of_mem_entries h⟩

theorem get?_of_specValue? {spec v : Value} (h : specValue? spec = some v) :
    spec.get? "value" = some v :=
  (Option.filter_eq_some_iff.mp h).1

/-! ## The way to a token -/

namespace Origin

/-- The category of a token. -/
def category : Origin → String
  | palette _ => "colors"
  | textColor _ => "colors"
  | elevation _ => "colors"
  | fontFamily _ => "typography"
  | scale _ _ => "typography"

/-- The key of the section that a token stands in. -/
def sectionKey : Origin → String
  | palette _ => "palette"
  | textColor _ => "typography_support"
  | elevation _ => "elevation"
  | fontFamily _ => "font_families"
  | scale _ _ => "scale"

/-- The keys on the way from its section to the value of a token. -/
def innerKeys : Origin → List String
  | palette name => [name, "value"]
  | textColor name => [name]
  | elevation name => [name]
  | fontFamily name => [name, "value"]
  | scale step entry => [step, entry]

/-- The keys on the way from the document of its category to the value of a token. -/
def keys (o : Origin) : List String := o.sectionKey :: o.innerKeys

/-- What follows the category in the path of a token. -/
def localPath (o : Origin) : String := String.intercalate "." o.keys

/-- The bundle that a token belongs to. -/
def bundle (colors typography : Bundle) : Origin → Bundle
  | palette _ => colors
  | textColor _ => colors
  | elevation _ => colors
  | fontFamily _ => typography
  | scale _ _ => typography

theorem path_eq_category (o : Origin) : o.path = o.category ++ "." ++ o.localPath := by
  have hlead : o.lead = o.category ++ "." ++ o.sectionKey ++ "." := by cases o <;> rfl
  have hrest : o.rest = String.intercalate "." o.innerKeys := by
    cases o with
    | palette name => exact (@String.append_assoc name "." "value").symm
    | fontFamily name => exact (@String.append_assoc name "." "value").symm
    | _ => rfl
  have hlocal : o.localPath = o.sectionKey ++ "." ++ String.intercalate "." o.innerKeys := by
    cases o <;> exact String.intercalate_cons_cons
  rw [path_eq, hlead, hrest, hlocal]
  simp only [String.append_assoc]

theorem pathSegments_localPath (o : Origin) :
    pathSegments o.localPath = o.keys.flatMap pathSegments :=
  pathSegments_intercalate _ _

/-- The keys lead to the value of the token. -/
theorem descend_keys {colors typography : Bundle} {components v : Value} {o : Origin}
    (hcolors : colors.document.Keyed) (htypography : typography.document.Keyed)
    (h : o.Holds (Bundle.sources colors typography components) v) :
    descend (o.bundle colors typography).document o.keys = .ok v := by
  have hplain {document : Value} {key name : String} (hkeyed : document.Keyed)
      (h : (name, v) ∈ sectionEntries document key) : descend document [key, name] = .ok v := by
    obtain ⟨w, hkey, hname, -⟩ := exists_of_mem_sectionEntries hkeyed h
    rw [descend_cons hkey, descend_cons hname, descend]
  have hspec {document : Value} {key name : String} (hkeyed : document.Keyed)
      (h : ∃ spec, (name, spec) ∈ sectionEntries document key ∧ specValue? spec = some v) :
      descend document [key, name, "value"] = .ok v := by
    obtain ⟨spec, hmem, hvalue⟩ := h
    obtain ⟨w, hkey, hname, -⟩ := exists_of_mem_sectionEntries hkeyed hmem
    rw [descend_cons hkey, descend_cons hname, descend_cons (get?_of_specValue? hvalue), descend]
  cases o with
  | palette name => exact hspec hcolors h
  | textColor name => exact hplain hcolors h
  | elevation name => exact hplain hcolors h
  | fontFamily name => exact hspec htypography h
  | scale step entry =>
    obtain ⟨spec, hmem, hentry⟩ := h
    obtain ⟨w, hscale, hstep, hkeyed⟩ := exists_of_mem_sectionEntries htypography hmem
    exact (descend_cons hscale _).trans
      ((descend_cons hstep _).trans (descend_cons (hkeyed.get?_of_mem hentry) _))

end Origin

/-! ## Lookups against references -/

/-- **A token without points in its keys is looked up as it is referred to.** In a style sheet whose
colours and typography are bundles, a reference is the path of a token: the category of a bundle, a
point and the local path. It means the name under which the value of the token is declared, and the
keys of the token lead to that value in the bundle. A lookup of the local path in the bundle answers
what the segments of the keys lead to, and so answers the value if no key has a point. -/
theorem get_localPath {colorsValue typographyValue components v : Value}
    {colors typography : Bundle} (hcolorsKeyed : colorsValue.Keyed)
    (htypographyKeyed : typographyValue.Keyed)
    (hcolors : Bundle.ofValue "colors" colorsValue = .ok colors)
    (htypography : Bundle.ofValue "typography" typographyValue = .ok typography) {o : Origin}
    (hholds : o.Holds (Bundle.sources colors typography components) v) (varPrefix : String) :
    o.path = (o.bundle colors typography).category ++ "." ++ o.localPath ∧
    (Bundle.sources colors typography components).meaning varPrefix o.path =
      some (o.property varPrefix) ∧
    Property.line (o.property varPrefix) (displayText v) ∈
      stylesheetLines (Bundle.sources colors typography components) varPrefix ∧
    descend (o.bundle colors typography).document o.keys = .ok v ∧
    (∀ w, (o.bundle colors typography).get o.localPath = .ok w ↔
      descend (o.bundle colors typography).document (o.keys.flatMap pathSegments) = .ok w) ∧
    ((∀ key ∈ o.keys, '.' ∉ key.toList) →
      (o.bundle colors typography).get o.localPath = .ok v) := by
  obtain ⟨hcolorsCategory, hcolorsDocument⟩ := Bundle.of_ofValue hcolorsKeyed hcolors
  obtain ⟨htypographyCategory, htypographyDocument⟩ :=
    Bundle.of_ofValue htypographyKeyed htypography
  have hcategory : (o.bundle colors typography).category = o.category := by
    cases o <;> first | exact hcolorsCategory | exact htypographyCategory
  have hdeclared : Property.line (o.property varPrefix) (displayText v) ∈
      stylesheetLines (Bundle.sources colors typography components) varPrefix := by
    obtain ⟨before, between, hlines⟩ := exists_stylesheetLines_eq hholds
    rw [hlines]
    simp
  have hkeys := Origin.descend_keys hcolorsDocument htypographyDocument hholds
  have hlookup (w : Value) : (o.bundle colors typography).get o.localPath = .ok w ↔
      descend (o.bundle colors typography).document (o.keys.flatMap pathSegments) = .ok w := by
    rw [Bundle.get_eq_ok_iff, o.pathSegments_localPath]
  refine ⟨by rw [hcategory, ← o.path_eq_category], meaning_path hholds varPrefix, hdeclared, hkeys,
    hlookup, fun hplain => ?_⟩
  rw [hlookup, flatMap_pathSegments hplain, hkeys]

/-- Colours of which one has a point in its name, and one has none. -/
def pointedColors : Bundle where
  category := "colors"
  schema := none
  metadata := []
  payload := [("palette", .object [("Surface Canvas", .object [("value", .text "#FAFAFA")])]),
    ("typography_support", .object [("text.primary", .text "#191919")])]

/-- One step of a scale. -/
def oneStep : Bundle where
  category := "typography"
  schema := none
  metadata := []
  payload := [("scale", .object [("body", .object [("line_height", .null)])])]

theorem get_localPath_surfaceCanvas :
    pointedColors.get (Origin.palette "Surface Canvas").localPath = .ok (.text "#FAFAFA") := by
  have hcolorsKeyed : pointedColors.document.Keyed :=
    .object (by decide) <| List.forall_mem_cons.mpr ⟨
      .object (by decide) <| List.forall_mem_singleton.mpr <|
        .object (by decide) <| List.forall_mem_singleton.mpr <| .text _,
      List.forall_mem_singleton.mpr <|
        .object (by decide) <| List.forall_mem_singleton.mpr <| .text _⟩
  have htypographyKeyed : oneStep.document.Keyed :=
    .object (by decide) <| List.forall_mem_singleton.mpr <|
      .object (by decide) <| List.forall_mem_singleton.mpr <|
        .object (by decide) <| List.forall_mem_singleton.mpr .null
  have hholds : (Origin.palette "Surface Canvas").Holds
      (Bundle.sources pointedColors oneStep .null) (.text "#FAFAFA") :=
    ⟨.object [("value", .text "#FAFAFA")], .head _, rfl⟩
  have hlocated := get_localPath hcolorsKeyed htypographyKeyed rfl rfl hholds "aeg"
  exact hlocated.2.2.2.2.2 (by decide)

/-- A reference to a name with a point in it means a token that no lookup finds. -/
theorem get_pointedName :
    Bundle.ofValue "colors" pointedColors.document = .ok pointedColors ∧
    Bundle.ofValue "typography" oneStep.document = .ok oneStep ∧
    (Bundle.sources pointedColors oneStep .null).meaning "aeg"
        "colors.typography_support.text.primary" =
      some "--aeg-color-text-primary" ∧
    pointedColors.get "typography_support.text.primary" =
      .error (.tokenPath "typography_support.text.primary" "text") :=
  ⟨rfl, rfl, by decide +kernel, rfl⟩

end Downline.Token
