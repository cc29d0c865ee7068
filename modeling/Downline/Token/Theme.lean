import Downline.Token.Stylesheet
import Downline.Text.Replace

/-!
# Theme extension

The same documents are rendered as the extension of a Tailwind theme: colours, font families, font
sizes, border radii and shadows, each an object from names to values. A name that is written twice
keeps its first place and its last value. The extension is handed out as a CommonJS module.
-/

namespace Downline.Token

open Json

/-- A name with dashes for underscores. -/
def dashesForUnderscores (name : String) : String :=
  name.map fun c => if c = '_' then '-' else c

/-- A text colour's name, in which a dash joins the word `text` to what follows. -/
def textColorName (name : String) : String :=
  String.ofList (Text.replaceAll "text.".toList "text-".toList name.toList)

/-- The value under a key, unless it is `null`. -/
def presentValue? (v : Value) (key : String) : Option Value :=
  (v.get? key).filter fun w => !w.isNull

/-- An object from name and value pairs, written one after the other. -/
def gather (pairs : List (String × Value)) : Entries :=
  pairs.foldl (fun e (k, v) => Entries.insert e k v) []

/-- Palette colours under their own names and text colours under theirs. -/
def themeColors (colors : Value) : List (String × Value) :=
  ((sectionEntries colors "palette").filterMap fun (name, spec) =>
      (specValue? spec).map fun v => (name, v))
    ++ (sectionEntries colors "typography_support").map fun (name, v) => (textColorName name, v)

def themeFontFamilies (typography : Value) : List (String × Value) :=
  (sectionEntries typography "font_families").filterMap fun (name, spec) =>
    (specValue? spec).map fun v => (dashesForUnderscores name, v)

/-- The line height and letter spacing that go with a font size. -/
def fontSizeOptions (spec : Value) : Value :=
  .object
    (((presentValue? spec "line_height").map fun v => ("lineHeight", v)).toList
      ++ ((presentValue? spec "letter_spacing").map fun v => ("letterSpacing", v)).toList)

/-- Each step of the scale that has a font size, with its options. -/
def themeFontSizes (typography : Value) : List (String × Value) :=
  (sectionEntries typography "scale").filterMap fun (name, spec) =>
    (presentValue? spec "font_size").map fun size =>
      (dashesForUnderscores name, .list [size, fontSizeOptions spec])

/-- The components whose border radius is part of a theme. -/
def roundedComponents : List String := ["button", "card"]

def themeBorderRadii (components : Value) : List (String × Value) :=
  roundedComponents.filterMap fun name =>
    (((components.get? "components").bind (·.get? name)).bind
      (presentValue? · "border_radius")).map fun v => (name, v)

/-- Shadows are named with the prefix. An elevation that is `null` or the empty text has none. -/
def themeShadows (colors : Value) (varPrefix : String) : List (String × Value) :=
  (sectionEntries colors "elevation").filterMap fun (name, v) =>
    if v.isNull || v.isEmptyText then none
    else some (varPrefix ++ "-" ++ dashesForUnderscores name, v)

/-- The extension of a theme. -/
def themeExtension (sources : Sources) (varPrefix : String) : Value :=
  .object [
    ("colors", .object (gather (themeColors sources.colors))),
    ("fontFamily", .object (gather (themeFontFamilies sources.typography))),
    ("fontSize", .object (gather (themeFontSizes sources.typography))),
    ("borderRadius", .object (gather (themeBorderRadii sources.components))),
    ("boxShadow", .object (gather (themeShadows sources.colors varPrefix)))]

/-- An extension as a module. -/
def themeModule (extension : Value) : String :=
  "module.exports = \x7b\n  theme: \x7b\n    extend: " ++ extension.pretty
    ++ "\n  \x7d\n\x7d;\n"

end Downline.Token
