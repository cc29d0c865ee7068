import Downline.Command.Run
import Downline.Environment.Process

/-!
# The program

Reads the command line, carries it out on the files of the machine, prints the transcript and ends
with the exit code.
-/

namespace Downline

instance : FileAccess IO where
  readText? path := do
    try return some (← IO.FS.readFile path) catch _ => return none
  writeText path text := do
    try
      IO.FS.writeFile path text
      return true
    catch _ => return false
  pathExists path := do
    try (← IO.FS.realPath path).pathExists catch _ => return false
  isDirectory path := do
    try (← IO.FS.realPath path).isDir catch _ => return false
  createDirectories path := do
    try
      IO.FS.createDirAll path
      return true
    catch _ => return false
  listing? path := do
    try
      let found ← (← IO.FS.realPath path).readDir
      return some (← found.toList.mapM fun entry => do
        -- An entry whose name is no text cannot be asked about, and no bundle has such a name.
        let isFile ← try pure ((← entry.path.symlinkMetadata).type == .file) catch _ => pure false
        return ⟨Files.bytesOf entry.fileName, isFile⟩)
    catch _ => return none
  currentDirectory? := do
    try return some (← IO.currentDir).toString catch _ => return none

/-- The number of the account that the process runs for. -/
def accountNumber : IO String := do
  let status ← IO.FS.readFile "/proc/self/status"
  let named := (status.splitOn "\n").find? (·.startsWith "Uid:")
  return ((named.getD "").splitOn "\t")[1]?.getD ""

/-- The environment of the process. -/
def processEnvironment : IO Environment := do
  let bindings ← try
    pure (Environment.ofBlock (← IO.FS.readFile "/proc/self/environ")) catch _ => pure []
  let home ← try
    let accounts ← IO.FS.readFile "/etc/passwd"
    pure (Environment.homeIn? accounts (← accountNumber)) catch _ => pure none
  return ⟨bindings, home⟩

end Downline

open Downline in
/-- Ends with the exit code of the run, with zero if the command line asks for information and with
two if it is not understood. -/
def main (words : List String) : IO UInt32 := do
  match Invocation.ofWords words with
  | .error .information =>
    IO.println Command.usage
    return 0
  | .error .misuse =>
    IO.eprintln Command.usage
    return 2
  | .ok invocation =>
    let environment ← processEnvironment
    let colored := environment.paints (← (← IO.getStdout).isTty)
    let outcome ← invocation.run environment colored
    IO.print outcome.transcript.output
    IO.eprint outcome.transcript.errors
    return outcome.exitCode.toUInt32
