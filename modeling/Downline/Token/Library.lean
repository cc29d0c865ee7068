import Downline.Token.Path
import Downline.Token.Theme
import Downline.Files.Access
import Downline.Failure

/-!
# A library of token bundles

A library reads the bundles of one directory, each from the file `<category>.json`, and exports
them. A bundle is read once: the library keeps it, and from then on the file is not looked at again.
A bundle that could not be read is not kept.

Operations run on a `Shelf`, the bundles kept so far. What has been kept stays kept if an operation
fails later on.
-/

namespace Downline.Token

open Json

/-- Where a library finds its bundles, and the prefix of its exports. -/
structure Library where
  directory : String
  varPrefix : String
  deriving DecidableEq, Repr

/-- The bundles that have been read, by category. -/
abbrev Shelf := List (String × Bundle)

/-- Both exports of a library. -/
structure Exports where
  css : String
  tailwind : String
  deriving DecidableEq, Repr

namespace Library

/-- Name of the file that the style sheet is written to. -/
def cssFile : String := "design-tokens.css"

/-- Name of the file that the theme module is written to. -/
def tailwindFile : String := "tailwind.tokens.cjs"

/-- The extension of bundle files. -/
def bundleExtension : String := "json"

/-- The file of a category. -/
def bundlePath (lib : Library) (category : String) : String :=
  Files.join lib.directory (category ++ "." ++ bundleExtension)

/-- The category of a file name: its stem, if it has the extension of bundles and the stem is
text. -/
def categoryOf? (name : List UInt8) : Option String :=
  match Files.stemAndExtension name with
  | (stem, some extension) =>
    if extension = Files.bytesOf bundleExtension then Files.textOf? stem else none
  | (_, none) => none

/-- The categories of the files in a listing, in the order of the file names. -/
def categoriesOf (listing : List Files.Listed) : List String :=
  let names := (listing.filter (·.isFile)).map (·.name)
  (names.mergeSort fun a b => decide (a ≤ b)).filterMap categoryOf?

/-- An operation on a library: it may fail, and the shelf outlives the failure. -/
abbrev Run (m : Type → Type) := ExceptT Failure (StateT Shelf m)

variable {m : Type → Type} [Monad m] [FileAccess m]

/-- Asks the files, leaving the shelf alone. -/
def ask {α : Type} (action : m α) : Run m α := ExceptT.lift (StateT.lift action)

/-- The categories that can be found; none if there is no directory. -/
def categories (lib : Library) : Run m (List String) := do
  if ← ask (FileAccess.isDirectory lib.directory) then
    match ← ask (FileAccess.listing? (m := m) lib.directory) with
    | none => throw (.operation .listBundles lib.directory)
    | some listing => return categoriesOf listing
  else return []

/-- Reads the bundle of a category from its file. -/
def readBundle (lib : Library) (category : String) : Run m Bundle := do
  let path := lib.bundlePath category
  if ← ask (FileAccess.pathExists path) then
    match ← ask (FileAccess.readText? (m := m) path) with
    | none => throw (.operation .readBundle path)
    | some content =>
      match Value.ofString? content with
      | none => throw (.operation .parseBundle path)
      | some v =>
        match Bundle.ofValue category v with
        | .error fault => throw (.domain fault)
        | .ok b => return b
  else throw (.domain (.bundleNotFound category path))

/-- The bundle of a category: the one on the shelf if there is one, otherwise the one in its file,
which is then put on the shelf. -/
def load (lib : Library) (category : String) : Run m Bundle := do
  match (← get).lookup category with
  | some b => return b
  | none =>
    let b ← lib.readBundle category
    modify ((category, b) :: ·)
    return b

/-- The value that a dotted path names in a category. -/
def token (lib : Library) (category path : String) : Run m Value := do
  let b ← lib.load category
  match b.get path with
  | .error fault => throw (.domain fault)
  | .ok v => return v

/-- Renders both exports from the three bundles that they need. -/
def exports (lib : Library) : Run m Exports := do
  let colors ← lib.load "colors"
  let typography ← lib.load "typography"
  let components ← lib.load "components"
  let sources : Sources := ⟨colors.document, typography.document, components.document⟩
  return ⟨stylesheet sources lib.varPrefix, themeModule (themeExtension sources lib.varPrefix)⟩

/-- Writes one export file. -/
def writeExport (path content : String) : Run m Unit := do
  if !(← ask (FileAccess.ensureParent path)) then
    throw (.operation .createExportDirectory path)
  if !(← ask (FileAccess.writeText path content)) then
    throw (.operation .writeExport path)

/-- Writes both exports into a directory and answers their paths, the style sheet first. -/
def writeExports (lib : Library) (directory : String) : Run m (List String) := do
  let texts ← lib.exports
  let cssPath := Files.join directory cssFile
  let tailwindPath := Files.join directory tailwindFile
  writeExport cssPath texts.css
  writeExport tailwindPath texts.tailwind
  return [cssPath, tailwindPath]

end Library

end Downline.Token
