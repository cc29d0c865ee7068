import Downline.Organization.Document
import Downline.Arena.Placement
import Downline.Record.Build
import Downline.Record.Document
import Downline.Files.Access
import Downline.Failure
import Downline.Text.Blank

/-!
# Loading organizations from files

An organization file holds a nested tree, `null` for no organization, or a list of records. The root
is loaded from any of the three; blanks around the document, of any kind, do not count. The arena is
loaded from a list of records only, and there only the blanks of JSON may stand around it.
-/

namespace Downline.Organization

open Json

variable {m : Type → Type} [Monad m] [FileAccess m]

/-- The content of an organization file. -/
def readFile (path : String) : ExceptT Failure m String := do
  match ← FileAccess.readText? (m := m) path with
  | none => throw (.operation .readOrganization path)
  | some content => return content

/-- The arena of the records in a text that was found at a path. -/
def arenaOfText (path content : String) : Except Failure Arena :=
  match Record.listOfJson? content with
  | none => .error (.operation .parseRecords path)
  | some records =>
    match Arena.ofRecords records with
    | .error fault => .error (.domain fault)
    | .ok a => .ok a

/-- The root of the organization in a text that was found at a path. -/
def rootOfText (path content : String) : Except Failure (Option Organization) :=
  let trimmed := String.ofList (Text.trim content.toList)
  if trimmed = "null" then .ok none
  else if trimmed.toList.head? = some '[' then
    (arenaOfText path trimmed).map Arena.organization?
  else
    match ofJson? trimmed with
    | none => .error (.operation .parseTree path)
    | some o => .ok (some o)

/-- Loads the root of the organization at a path. -/
def loadRoot (path : String) : ExceptT Failure m (Option Organization) := do
  rootOfText path (← readFile path)

/-- Loads the records at a path into an arena. -/
def loadArena (path : String) : ExceptT Failure m Arena := do
  arenaOfText path (← readFile path)

/-- Loads the organization at a path as rows. -/
def loadLevels (path : String) : ExceptT Failure m Levels := do
  match flatten (← loadRoot path) with
  | .error fault => throw (.domain fault)
  | .ok levels => return levels

/-- Places a new member among the records at a path. The file stays as it is; the arena with the new
member is handed out along with the placement. -/
def placeInFile (path sponsorId : String) (member : Member) (shape : TreeType) :
    ExceptT Failure m (Arena × Placement) := do
  let a ← loadArena path
  match a.place sponsorId member shape with
  | (.error fault, _) => throw (.domain fault)
  | (.ok placement, grown) => return (grown, placement)

end Downline.Organization
