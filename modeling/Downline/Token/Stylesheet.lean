import Downline.Token.Name
import Downline.Json.Writer

/-!
# Style sheet variables

Three documents, for colours, typography and components, are rendered as one block of custom
properties. First come the *tokens*: palette, text colours, elevations, font families and the type
scale. Each gets a property, and its dotted path becomes a reference that components may use, as in
`{colors.palette.primary.value}`.

Then come the *components*: every value below a component that is no object, in the order of the
document, named by the keys on the way. References in texts are replaced by the properties they
mean. A text in which a brace is left over, from a reference that means nothing or from anything
else, is left out.
-/

namespace Downline.Token

open Json

/-- The documents that are rendered together. -/
structure Sources where
  colors : Value
  typography : Value
  components : Value

/-- The text of a value in a style sheet: a text stands for itself, anything else is written
compactly. -/
def displayText : Value → String
  | .text s => s
  | v => v.compact

/-- The value of a token with a specification: what it holds under `value`, unless that is `null` or
the empty text. -/
def specValue? (spec : Value) : Option Value :=
  (spec.get? "value").filter fun v => !v.isNull && !v.isEmptyText

/-- The entries of a section of a document; none if the section is missing or no object. -/
def sectionEntries (document : Value) (key : String) : Entries :=
  ((document.get? key).map Value.entries).getD []

/-- What stands in a section tells that the section is an object. -/
theorem get?_of_mem_sectionEntries {document : Value} {key : String} {entry : String × Value}
    (h : entry ∈ sectionEntries document key) :
    document.get? key = some (.object (sectionEntries document key)) := by
  rw [sectionEntries] at h ⊢
  cases hsection : document.get? key with
  | none =>
    rw [hsection] at h
    cases h
  | some v =>
    rw [hsection] at h
    cases v with
    | object entries => rfl
    | null | bool | number | text | list => cases h

/-- A custom property made from a token. -/
structure Property where
  /-- The dotted path by which components refer to the token. -/
  reference : String
  /-- The name of the property, with its two dashes. -/
  name : String
  value : String
  deriving DecidableEq, Repr

namespace Property

/-- The line that declares a property. -/
def line (name value : String) : String := "  " ++ name ++ ": " ++ value ++ ";"

end Property

/-- The name of a property: the prefix, the kind of token and the sanitized name. -/
def propertyName (varPrefix kind name : String) : String :=
  "--" ++ varPrefix ++ "-" ++ kind ++ "-" ++ sanitize name

/-- Properties of a section whose tokens have specifications. -/
def specProperties (document : Value) (path key varPrefix kind : String) : List Property :=
  (sectionEntries document key).filterMap fun (name, spec) =>
    (specValue? spec).map fun v =>
      ⟨path ++ "." ++ key ++ "." ++ name ++ ".value", propertyName varPrefix kind name,
        displayText v⟩

/-- Properties of a section whose tokens are plain values. -/
def plainProperties (document : Value) (path key varPrefix kind : String) : List Property :=
  (sectionEntries document key).map fun (name, v) =>
    ⟨path ++ "." ++ key ++ "." ++ name, propertyName varPrefix kind name, displayText v⟩

/-- Properties of the type scale: one for every entry of every step. -/
def scaleProperties (document : Value) (varPrefix : String) : List Property :=
  (sectionEntries document "scale").flatMap fun (name, spec) =>
    spec.entries.map fun (key, v) =>
      ⟨"typography.scale." ++ name ++ "." ++ key,
        propertyName varPrefix "typography" (name ++ "-" ++ key), displayText v⟩

/-- The properties of all tokens, in the order in which they are declared. -/
def tokenProperties (sources : Sources) (varPrefix : String) : List Property :=
  specProperties sources.colors "colors" "palette" varPrefix "color"
    ++ plainProperties sources.colors "colors" "typography_support" varPrefix "color"
    ++ plainProperties sources.colors "colors" "elevation" varPrefix "elevation"
    ++ specProperties sources.typography "typography" "font_families" varPrefix "font-family"
    ++ scaleProperties sources.typography varPrefix

/-- The property that a reference means: of several tokens with one dotted path, the last. -/
def propertyOf? (properties : List Property) (reference : String) : Option String :=
  (properties.reverse.find? fun p => p.reference == reference).map Property.name

/-! ## References -/

def isBrace (c : Char) : Bool := c == '\x7b' || c == '\x7d'

/-- The characters up to the first brace, and the rest. -/
def spanToBrace : List Char → List Char × List Char
  | [] => ([], [])
  | c :: cs => if isBrace c then ([], c :: cs) else (c :: (spanToBrace cs).1, (spanToBrace cs).2)

theorem length_spanToBrace (cs : List Char) :
    (spanToBrace cs).1.length + (spanToBrace cs).2.length = cs.length := by
  induction cs with
  | nil => rfl
  | cons c cs ih => by_cases h : isBrace c <;> simp_all [spanToBrace]; omega

/-- Replaces every group of braces that holds a reference. A group is an opening brace, one
character or more without braces, and a closing brace; a group whose reference means nothing stays
as it is, and so does a brace that starts no group. -/
def replaceReferences (meaning : String → Option String) (cs : List Char) : List Char :=
  match cs with
  | [] => []
  | c :: rest =>
    if c = '\x7b' then
      match _hs : spanToBrace rest with
      | (d :: ds, '\x7d' :: after) =>
        let reference := d :: ds
        let group :=
          match meaning (String.ofList reference) with
          | some name => "var(".toList ++ name.toList ++ [')']
          | none => '\x7b' :: (reference ++ ['\x7d'])
        group ++ replaceReferences meaning after
      | _ => c :: replaceReferences meaning rest
    else c :: replaceReferences meaning rest
termination_by cs.length
decreasing_by
  · have := length_spanToBrace rest
    simp only [_hs, List.length_cons] at this ⊢
    omega
  · simp
  · simp

/-- The text of a component's value, its references replaced; `none` if a text has a brace left. -/
def componentText? (meaning : String → Option String) : Value → Option String
  | .text s =>
    let replaced := replaceReferences meaning s.toList
    if replaced.any isBrace then none else some (String.ofList replaced)
  | v => some (displayText v)

/-! ## Components -/

/-- A value below a component, with the sanitized keys from the component down to it. -/
structure ComponentProperty where
  path : List String
  value : String
  deriving DecidableEq, Repr

mutual

/-- The properties below a value that is reached by a path. -/
def componentProperties (meaning : String → Option String) (path : List String) :
    Value → List ComponentProperty
  | .object entries => componentEntries meaning path entries
  | v => (componentText? meaning v).toList.map (⟨path, ·⟩)

/-- The properties below the entries of an object that is reached by a path. -/
def componentEntries (meaning : String → Option String) (path : List String) :
    List (String × Value) → List ComponentProperty
  | [] => []
  | (key, v) :: entries =>
    componentProperties meaning (path ++ [sanitize key]) v ++ componentEntries meaning path entries

end

/-- The properties of all components; a component that is no object has none. -/
def allComponentProperties (meaning : String → Option String) (components : Value) :
    List ComponentProperty :=
  (sectionEntries components "components").flatMap fun (name, spec) =>
    componentEntries meaning [sanitize name] spec.entries

/-- The line that declares a component's property. -/
def ComponentProperty.line (varPrefix : String) (p : ComponentProperty) : String :=
  Property.line ("--" ++ varPrefix ++ "-component-" ++ String.intercalate "-" p.path) p.value

/-! ## The block -/

/-- The lines of the block, from the opening brace to the empty line at the end. -/
def stylesheetLines (sources : Sources) (varPrefix : String) : List String :=
  let properties := tokenProperties sources varPrefix
  [":root \x7b"]
    ++ properties.map (fun p => Property.line p.name p.value)
    ++ (allComponentProperties (propertyOf? properties) sources.components).map
        (ComponentProperty.line varPrefix)
    ++ ["\x7d", ""]

/-- The style sheet of three documents. -/
def stylesheet (sources : Sources) (varPrefix : String) : String :=
  String.intercalate "\n" (stylesheetLines sources varPrefix)

end Downline.Token
