import Downline.Files.Name
import Downline.Files.Path

/-!
# Access to files

What the library asks of the files around it, so that the same operations run on the files of a
machine and on a `Store` that is a value. Failure is an answer: a text that cannot be read is
`none`, a change that cannot be made is `false`.
-/

namespace Downline

/-- What a listing of a directory tells of an entry. -/
structure Files.Listed where
  name : List UInt8
  /-- True of regular files; a link is none, whatever it leads to. -/
  isFile : Bool
  deriving DecidableEq, Repr

/-- Access to files by path. -/
class FileAccess (m : Type → Type) where
  /-- The content of a file; `none` if there is no such file or its bytes are no UTF-8 text. -/
  readText? : String → m (Option String)
  /-- Makes a text the whole content of a file in an existing directory. -/
  writeText : String → String → m Bool
  /-- True if a path leads to a file or a directory. -/
  pathExists : String → m Bool
  isDirectory : String → m Bool
  /-- Creates a directory and all that lead to it; true also if it is there already. -/
  createDirectories : String → m Bool
  /-- What stands directly inside a directory, in no particular order. -/
  listing? : String → m (Option (List Files.Listed))
  /-- The absolute path of the current directory, if it still exists. -/
  currentDirectory? : m (Option String)

namespace FileAccess

/-- Creates the directory that a path lies in. A path of one segment lies in the current directory,
which needs no creation. -/
def ensureParent {m : Type → Type} [Monad m] [FileAccess m] (path : String) : m Bool :=
  if Files.parent path = "" then pure true else createDirectories (Files.parent path)

end FileAccess

end Downline
