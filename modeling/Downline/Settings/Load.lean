import Downline.Settings.Document
import Downline.Settings.Override
import Downline.Environment.Expansion
import Downline.Files.Access

/-!
# Loading settings

The layers are, from the lowest to the highest: the defaults, the global file of the account, the
local file of the project and the environment. A file that is there must be readable and well
formed. Relative paths of the defaults and of the local file are seen from the project directory;
those of the global file and of the environment are kept. At the end, references to variables and to
the home directory are replaced in both paths.
-/

namespace Downline.Settings

/-- The directory of global configuration files: the one that `XDG_CONFIG_HOME` names by an absolute
path, otherwise `.config` in the home directory. Without a home directory there is none. -/
def configHome? (e : Environment) : Option String :=
  match e.home?, e.get? "XDG_CONFIG_HOME" with
  | none, _ => none
  | some home, none => some (Files.join home ".config")
  | some home, some named =>
    some (if Files.isAbsolute named then named else Files.join home ".config")

/-- The global file. -/
def globalPath? (e : Environment) : Option String :=
  (configHome? e).map fun directory => Files.join (Files.join directory "orgtree") "orgtree.toml"

/-- The local file of a project. -/
def localPath (project : String) : String := Files.join project ".orgtree.toml"

/-- The settings that hold below all layers. -/
def base (project : Option String) : Settings :=
  match project with
  | none => default
  | some directory => default.rootedAt directory

/-- Settings with the references in their paths replaced. -/
def expand (s : Settings) (e : Environment) : Settings :=
  { s with tokensDir := e.expand s.tokensDir, distDir := e.expand s.distDir }

variable {m : Type → Type} [Monad m] [FileAccess m]

/-- The layer of a file; a file that is not there specifies nothing. -/
def loadLayer (path : String) : ExceptT Failure m Layer := do
  if ← FileAccess.pathExists (m := m) path then
    match ← FileAccess.readText? (m := m) path with
    | none => throw (.config (.unreadable path))
    | some content =>
      match Layer.ofToml? content with
      | none => throw (.config (.malformed path))
      | some l => return l
  else return .empty

/-- The layer of a file that there may be no path to. -/
def loadLayerAt (path : Option String) : ExceptT Failure m Layer :=
  match path with
  | none => return .empty
  | some path => loadLayer path

/-- The layer of the local file of a project. -/
def loadLocal (project : Option String) : ExceptT Failure m Layer :=
  match project with
  | none => return .empty
  | some directory => do return (← loadLayer (localPath directory)).rootedAt directory

/-- The settings for a project, or for no project. -/
def load (e : Environment) (project : Option String) : ExceptT Failure m Settings := do
  let fromGlobal ← loadLayerAt (globalPath? e)
  let fromProject ← loadLocal project
  match Layer.ofEnvironment e with
  | .error fault => throw (.config fault)
  | .ok fromEnvironment =>
    return (((base project).overlay fromGlobal).overlay fromProject).overlay fromEnvironment
      |>.expand e

end Downline.Settings
