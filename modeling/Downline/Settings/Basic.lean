import Downline.Member
import Downline.Files.Path

/-!
# Settings

Settings say where the token bundles are, where their exports go, which prefix the exports use and
which shape new members are placed in. They are put together from layers; a layer specifies any of
the four, and each of them is decided by the highest layer that specifies it (`Settings.overlay`).
-/

namespace Downline

/-- The settings of a run. -/
structure Settings where
  /-- Directory of the token bundles. -/
  tokensDir : String
  /-- Directory that exports are written to. -/
  distDir : String
  /-- Prefix of style sheet variables. -/
  varPrefix : String
  /-- Shape that new members are placed in. -/
  treeType : TreeType
  deriving DecidableEq, Repr

namespace Settings

/-- Settings as far as one source specifies them. -/
structure Layer where
  tokensDir : Option String
  distDir : Option String
  varPrefix : Option String
  treeType : Option TreeType
  deriving DecidableEq, Repr

/-- The layer that specifies nothing. -/
def Layer.empty : Layer := ⟨none, none, none, none⟩

/-- The settings that hold when nothing is specified. -/
def default : Settings := ⟨"tokens", "tokens/dist", defaultVarPrefix, .unilevel⟩

/-- Settings with both paths seen from a directory. -/
def rootedAt (s : Settings) (directory : String) : Settings :=
  { s with
    tokensDir := Files.join directory s.tokensDir
    distDir := Files.join directory s.distDir }

/-- A layer with its paths seen from a directory. -/
def Layer.rootedAt (l : Layer) (directory : String) : Layer :=
  { l with
    tokensDir := l.tokensDir.map (Files.join directory)
    distDir := l.distDir.map (Files.join directory) }

/-- Settings under a layer: what the layer specifies wins. -/
def overlay (s : Settings) (l : Layer) : Settings :=
  { tokensDir := l.tokensDir.getD s.tokensDir
    distDir := l.distDir.getD s.distDir
    varPrefix := l.varPrefix.getD s.varPrefix
    treeType := l.treeType.getD s.treeType }

@[simp] theorem overlay_empty (s : Settings) : s.overlay .empty = s := rfl

end Settings

end Downline
