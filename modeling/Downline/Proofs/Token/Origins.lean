import Downline.Proofs.Token.Naming
import Downline.Token.Stylesheet

/-!
# Where tokens come from

A token stands in a section of a document, under its name; an entry of the type scale stands under
the name of its step and its own. This is its `Origin`. The origin gives the dotted path by which
components refer to the token, and the kind and the name from which the name of its property is
made. The properties of a style sheet are those of the tokens of the documents, in order
(`tokenProperties_eq`).

A dotted path does not give the origin back: names may hold points, so two entries of the scale may
have one path. But then they have one property (`property_eq_of_path_eq`).
-/

namespace Downline.Token

open Json

/-! ## Kinds of properties -/

/-- What a property is made from. -/
inductive Kind where
  | color
  | elevation
  | fontFamily
  | typography
  | component
  deriving DecidableEq, Repr

/-- The word that stands for a kind in the name of a property. -/
def Kind.word : Kind → String
  | color => "color"
  | elevation => "elevation"
  | fontFamily => "font-family"
  | typography => "typography"
  | component => "component"

/-- The name of a property of a kind. -/
def Kind.property (k : Kind) (varPrefix name : String) : String :=
  "--" ++ varPrefix ++ "-" ++ k.word ++ "-" ++ name

/-- Texts that are equal begin alike. -/
theorem take_eq_of_append_eq {a b x y : String} {n : Nat} (h : a ++ x = b ++ y)
    (ha : n ≤ a.toList.length) (hb : n ≤ b.toList.length) :
    a.toList.take n = b.toList.take n := by
  have hchars := congrArg (fun s => s.toList.take n) h
  simpa only [String.toList_append, List.take_append_of_le_length ha,
    List.take_append_of_le_length hb] using hchars

/-- Three letters tell the kinds apart. -/
theorem Kind.eq_of_take {k k' : Kind} (h : k.word.toList.take 3 = k'.word.toList.take 3) :
    k = k' := by
  cases k <;> cases k' <;> first | rfl | exact absurd h (by decide)

theorem Kind.three_le_length (k : Kind) : 3 ≤ k.word.toList.length := by
  cases k <;> decide

/-- The name of a property tells its kind and the rest of the name. -/
theorem Kind.property_inj {k k' : Kind} {varPrefix name name' : String} :
    k.property varPrefix name = k'.property varPrefix name' ↔ k = k' ∧ name = name' := by
  refine ⟨fun h => ?_, fun ⟨hk, hname⟩ => by rw [hk, hname]⟩
  have hword : k.word ++ ("-" ++ name) = k'.word ++ ("-" ++ name') := by
    simpa only [property, String.append_assoc, String.append_right_inj] using h
  have hkind : k = k' :=
    eq_of_take (take_eq_of_append_eq hword k.three_le_length k'.three_le_length)
  subst hkind
  exact ⟨rfl, (String.append_right_inj _).mp ((String.append_right_inj _).mp hword)⟩

/-! ## Origins -/

/-- Where a token stands in the documents. -/
inductive Origin where
  | palette (name : String)
  | textColor (name : String)
  | elevation (name : String)
  | fontFamily (name : String)
  | scale (step entry : String)
  deriving DecidableEq, Repr

namespace Origin

/-- The dotted path of a token. -/
def path : Origin → String
  | palette name => "colors.palette." ++ name ++ ".value"
  | textColor name => "colors.typography_support." ++ name
  | elevation name => "colors.elevation." ++ name
  | fontFamily name => "typography.font_families." ++ name ++ ".value"
  | scale step entry => "typography.scale." ++ step ++ "." ++ entry

def kind : Origin → Kind
  | palette _ => .color
  | textColor _ => .color
  | elevation _ => .elevation
  | fontFamily _ => .fontFamily
  | scale _ _ => .typography

/-- The name from which the name of the property is made. -/
def name : Origin → String
  | palette name => name
  | textColor name => name
  | elevation name => name
  | fontFamily name => name
  | scale step entry => step ++ "-" ++ entry

/-- The name of the property of a token. -/
def property (o : Origin) (varPrefix : String) : String :=
  o.kind.property varPrefix (sanitize o.name)

/-- The value that the documents have for a token. In a section whose tokens have specifications,
one without a value is no token. -/
def Holds (sources : Sources) (v : Value) : Origin → Prop
  | palette name => ∃ spec, (name, spec) ∈ sectionEntries sources.colors "palette" ∧
      specValue? spec = some v
  | textColor name => (name, v) ∈ sectionEntries sources.colors "typography_support"
  | elevation name => (name, v) ∈ sectionEntries sources.colors "elevation"
  | fontFamily name => ∃ spec, (name, spec) ∈ sectionEntries sources.typography "font_families" ∧
      specValue? spec = some v
  | scale step entry => ∃ spec, (step, spec) ∈ sectionEntries sources.typography "scale" ∧
      (entry, v) ∈ spec.entries

/-- What the dotted paths of a section begin with. -/
def lead : Origin → String
  | palette _ => "colors.palette."
  | textColor _ => "colors.typography_support."
  | elevation _ => "colors.elevation."
  | fontFamily _ => "typography.font_families."
  | scale _ _ => "typography.scale."

/-- What follows in a dotted path. -/
def rest : Origin → String
  | palette name => name ++ ".value"
  | textColor name => name
  | elevation name => name
  | fontFamily name => name ++ ".value"
  | scale step entry => step ++ "." ++ entry

theorem path_eq (o : Origin) : o.path = o.lead ++ o.rest := by
  cases o with
  | palette name => exact String.append_assoc
  | textColor name => rfl
  | elevation name => rfl
  | fontFamily name => exact String.append_assoc
  | scale step entry =>
    exact (congrArg (· ++ entry) String.append_assoc).trans String.append_assoc

/-- Twelve characters tell the sections apart. -/
theorem take_lead_eq {o o' : Origin} (h : o.path = o'.path) :
    o.lead.toList.take 12 = o'.lead.toList.take 12 := by
  have hlength : ∀ o : Origin, 12 ≤ o.lead.toList.length := fun o => by
    cases o <;> simp only [lead] <;> decide
  rw [path_eq, path_eq] at h
  exact take_eq_of_append_eq h (hlength o) (hlength o')

/-- **Tokens with one dotted path have one property**, although two entries of the scale may have
the same path. -/
theorem property_eq_of_path_eq {o o' : Origin} (h : o.path = o'.path) (varPrefix : String) :
    o.property varPrefix = o'.property varPrefix := by
  have hlead := take_lead_eq h
  have hrest (hsame : o.lead = o'.lead) : o.rest = o'.rest := by
    rw [path_eq, path_eq, hsame] at h
    exact (String.append_right_inj _).mp h
  cases o <;> cases o' <;> first | exact absurd hlead (by simp only [lead]; decide) | skip
  case palette.palette => rw [(String.append_left_inj _).mp (hrest rfl)]
  case textColor.textColor => exact congrArg (fun name => (textColor name).property _) (hrest rfl)
  case elevation.elevation => exact congrArg (fun name => (elevation name).property _) (hrest rfl)
  case fontFamily.fontFamily => rw [(String.append_left_inj _).mp (hrest rfl)]
  case scale.scale step entry step' entry' =>
    -- The names may be cut differently, but a point counts for as much as a dash.
    have hjoined : step ++ "." ++ entry = step' ++ "." ++ entry' := hrest rfl
    have hname : sanitize (step ++ "-" ++ entry) = sanitize (step' ++ "-" ++ entry') := by
      rw [← sanitize_point, hjoined, sanitize_point]
    exact congrArg (Kind.typography.property varPrefix) hname

end Origin

/-! ## The tokens of documents -/

/-- The tokens of a section whose tokens have specifications. -/
def specEntries (document : Value) (key : String) : Entries :=
  (sectionEntries document key).filterMap fun (name, spec) => (specValue? spec).map (name, ·)

theorem mem_specEntries_iff {document : Value} {key name : String} {v : Value} :
    (name, v) ∈ specEntries document key ↔
      ∃ spec, (name, spec) ∈ sectionEntries document key ∧ specValue? spec = some v := by
  simp only [specEntries, List.mem_filterMap, Option.map_eq_some_iff, Prod.mk.injEq, Prod.exists]
  constructor
  · rintro ⟨_, spec, hmem, _, hvalue, rfl, rfl⟩
    exact ⟨spec, hmem, hvalue⟩
  · rintro ⟨spec, hmem, hvalue⟩
    exact ⟨name, spec, hmem, v, hvalue, rfl, rfl⟩

/-- The tokens of the documents with their values, in the order of the style sheet. -/
def tokens (sources : Sources) : List (Origin × Value) :=
  (specEntries sources.colors "palette").map (fun (name, v) => (.palette name, v))
    ++ (sectionEntries sources.colors "typography_support").map (fun (name, v) =>
        (.textColor name, v))
    ++ (sectionEntries sources.colors "elevation").map (fun (name, v) => (.elevation name, v))
    ++ (specEntries sources.typography "font_families").map (fun (name, v) => (.fontFamily name, v))
    ++ (sectionEntries sources.typography "scale").flatMap fun (step, spec) =>
        spec.entries.map fun (entry, v) => (.scale step entry, v)

theorem mem_tokens_iff {sources : Sources} {o : Origin} {v : Value} :
    (o, v) ∈ tokens sources ↔ o.Holds sources v := by
  simp only [tokens, List.mem_append, List.mem_map, List.mem_flatMap, Prod.mk.injEq, Prod.exists]
  cases o with
  | palette name => simp [Origin.Holds, mem_specEntries_iff]
  | textColor name => simp [Origin.Holds]
  | elevation name => simp [Origin.Holds]
  | fontFamily name => simp [Origin.Holds, mem_specEntries_iff]
  | scale step entry =>
    simp only [Origin.Holds, reduceCtorEq, false_and, and_false, exists_false, false_or,
      Origin.scale.injEq]
    constructor
    · rintro ⟨_, spec, hstep, _, _, hentry, ⟨rfl, rfl⟩, rfl⟩
      exact ⟨spec, hstep, hentry⟩
    · rintro ⟨spec, hstep, hentry⟩
      exact ⟨step, spec, hstep, entry, v, hentry, ⟨rfl, rfl⟩, rfl⟩

/-- The property of a token with a value. -/
def Origin.toProperty (varPrefix : String) (token : Origin × Value) : Property :=
  ⟨token.1.path, token.1.property varPrefix, displayText token.2⟩

theorem specProperties_eq (document : Value) (path key varPrefix kind : String) :
    specProperties document path key varPrefix kind =
      (specEntries document key).map fun (name, v) =>
        ⟨path ++ "." ++ key ++ "." ++ name ++ ".value", propertyName varPrefix kind name,
          displayText v⟩ := by
  rw [specProperties, specEntries, List.map_filterMap]
  congr 1
  funext ⟨name, spec⟩
  simp only [Option.map_map]
  rfl

/-- **A style sheet has a property for every token of the documents**, in order. -/
theorem tokenProperties_eq (sources : Sources) (varPrefix : String) :
    tokenProperties sources varPrefix = (tokens sources).map (Origin.toProperty varPrefix) := by
  have hpalette : "colors" ++ "." ++ "palette" ++ "." = "colors.palette." := rfl
  have htext : "colors" ++ "." ++ "typography_support" ++ "." = "colors.typography_support." := rfl
  have helevation : "colors" ++ "." ++ "elevation" ++ "." = "colors.elevation." := rfl
  have hfamily : "typography" ++ "." ++ "font_families" ++ "." = "typography.font_families." := rfl
  simp only [tokenProperties, specProperties_eq, plainProperties, scaleProperties, hpalette, htext,
    helevation, hfamily, tokens, List.map_append, List.map_map, List.map_flatMap]
  rfl

end Downline.Token
