import Downline.Badge
import Downline.Command.Basic
import Downline.Command.Transcript
import Downline.Organization.Load
import Downline.Settings.Load
import Downline.Token.Library

/-!
# Carrying out commands

A command reads and writes files and leaves a transcript, or it fails. The exit code of a run is
zero if it succeeds and otherwise tells the kind of failure.
-/

namespace Downline

/-- Why a command fails. -/
inductive CommandFailure where
  | failure (cause : Failure)
  | noCommand
  | noCurrentDirectory
  deriving DecidableEq, Repr

namespace CommandFailure

def message : CommandFailure → String
  | failure cause => cause.message
  | noCommand => "no command given, see --help"
  | noCurrentDirectory => "I/O error: resolve current directory"

/-- The exit codes are 64 for a wrong command line, 65 for wrong data, 66 for missing data, 74 for
an action on files that does not succeed and 78 for wrong settings. -/
def exitCode : CommandFailure → Nat
  | noCommand => 64
  | noCurrentDirectory => 74
  | failure (.config _) => 78
  | failure (.operation _ _) => 74
  | failure (.domain (.bundleNotFound _ _)) => 66
  | failure (.domain _) => 65

end CommandFailure

/-- What a run leaves besides changed files. -/
structure Outcome where
  exitCode : Nat
  transcript : Transcript
  deriving DecidableEq, Repr

namespace Command

/-! ## What the commands print -/

/-- The line of a row's totals. -/
def rowHeader (t : Levels.Summary) : String :=
  "Level " ++ toString t.depth ++ " (" ++ toString t.width ++ " members, PV " ++ toString t.pvLeft
    ++ " / " ++ toString t.pvRight ++ ")"

/-- The line of a member in its row. -/
def rowDetail (colored : Bool) (m : Member) : String :=
  m.status.badge colored ++ " " ++ m.title ++ " 직급 " ++ m.rank ++ "  PV "
    ++ toString m.pvLeft.toNat ++ " / " ++ toString m.pvRight.toNat

/-- Rows as text. -/
def rowsTranscript (colored : Bool) (l : Levels) : Transcript :=
  .concat ((l.rows.zip l.summary).map fun (row, totals) =>
    .header colored (rowHeader totals) ++
      .concat (row.map fun e => .detail (rowDetail colored e.member)))

/-- The line of a placement. -/
def placementLine (id : String) (p : Placement) (shape : TreeType) : String :=
  let leg := match p.leg with
    | some leg => " leg " ++ leg.letter
    | none => ""
  id ++ " placed below " ++ p.parentId ++ leg ++ " at depth " ++ toString p.depth ++ " ("
    ++ shape.name ++ ")"

/-- A placement and the hierarchy that it leads to. -/
def placementTranscript (colored : Bool) (sponsor id : String) (p : Placement) (shape : TreeType)
    (a : Arena) : Transcript :=
  .success colored (placementLine id p shape) ++
    (if p.spillover then .detail ("spillover from sponsor " ++ sponsor) else .empty) ++
    .line a.drawing.render

/-- A token: a text as it is, any other value as JSON. -/
def tokenLine : Json.Value → String
  | .text s => s
  | v => v.compact

/-! ## Running -/

variable {m : Type → Type} [Monad m] [FileAccess m]

/-- Runs an operation on a library whose shelf is empty. -/
def onLibrary {α : Type} (x : Token.Library.Run m α) : ExceptT Failure m α :=
  ExceptT.mk do return (← StateT.run (ExceptT.run x) []).1

/-- Carries out a command under given settings. -/
def runUnder (s : Settings) (colored : Bool) : Command → ExceptT Failure m Transcript
  | levels file json => do
    let l ← Organization.loadLevels file
    return if json then .line l.toValue.pretty else rowsTranscript colored l
  | tree file => do
    match ← Organization.loadRoot file with
    | some o => return .line o.drawing.render
    | none => return .warning colored "organization is empty"
  | place file sponsor id name rank binary => do
    let shape := if binary then .binary else s.treeType
    let (a, p) ← Organization.placeInFile file sponsor ⟨id, name, rank, 0, 0, .active⟩ shape
    return placementTranscript colored sponsor id p shape a
  | categories => do
    let found ← onLibrary (Token.Library.categories ⟨s.tokensDir, s.varPrefix⟩)
    let notice := if found.isEmpty then
      Transcript.warning colored ("no token bundles in " ++ s.tokensDir) else .empty
    return notice ++ .concat (found.map .line)
  | token category path => do
    let v ← onLibrary (Token.Library.token ⟨s.tokensDir, s.varPrefix⟩ category path)
    return .line (tokenLine v)
  | writeExports directory => do
    let written ← onLibrary
      (Token.Library.writeExports ⟨s.tokensDir, s.varPrefix⟩ (directory.getD s.distDir))
    return .header colored "Design token exports generated:" ++ .concat (written.map .detail)
  | settings => return .line s.toToml
  | settingsPaths => return .empty
  | completion _ => return .empty

/-- Tells where the settings come from. -/
def pathsTranscript (e : Environment) (colored : Bool) (project : String) : Transcript :=
  (match Settings.globalPath? e with
    | some path => .labelled colored "global" path
    | none => .warning colored "no global config directory on this platform") ++
    .labelled colored "local" (Settings.localPath project)

/-- Carries out a command for a project. Only some commands need settings. -/
def run (e : Environment) (colored : Bool) (project : String) (c : Command) :
    ExceptT Failure m Transcript :=
  match c with
  | settingsPaths => return pathsTranscript e colored project
  | completion _ => return .empty
  | c => do runUnder (← Settings.load e (some project)) colored c

end Command

namespace Invocation

variable {m : Type → Type} [Monad m] [FileAccess m]

/-- The project directory: the one given, otherwise the current one. -/
def projectDirectory (i : Invocation) : ExceptT CommandFailure m String :=
  match i.project with
  | some directory => return directory
  | none => do
    match ← FileAccess.currentDirectory? (m := m) with
    | some directory => return directory
    | none => throw .noCurrentDirectory

/-- Carries out a command line. -/
def transcript (e : Environment) (colored : Bool) (i : Invocation) :
    ExceptT CommandFailure m Transcript := do
  let project ← i.projectDirectory
  match i.command with
  | none => throw .noCommand
  | some c => (c.run e colored project).adapt .failure

/-- Carries out a command line and reports its failure. -/
def run (e : Environment) (colored : Bool) (i : Invocation) : m Outcome := do
  match ← (i.transcript e colored).run with
  | .ok t => return ⟨0, t⟩
  | .error f => return ⟨f.exitCode, .error colored f.message⟩

end Invocation

end Downline
