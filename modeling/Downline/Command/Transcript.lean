import Downline.Terminal

/-!
# What a command prints

A transcript holds the text for the output and the text for the error output of a run. Its parts are
lines of a few kinds, put one behind the other.
-/

namespace Downline

/-- The texts that a run has printed. -/
structure Transcript where
  output : String
  errors : String
  deriving DecidableEq, Repr

namespace Transcript

/-- Nothing is printed. -/
def empty : Transcript := ⟨"", ""⟩

instance : Append Transcript := ⟨fun a b => ⟨a.output ++ b.output, a.errors ++ b.errors⟩⟩

/-- Transcripts one behind the other. -/
def concat (ts : List Transcript) : Transcript := ts.foldr (· ++ ·) empty

/-- A line of output. -/
def line (text : String) : Transcript := ⟨text ++ "\n", ""⟩

/-- An indented line of output. -/
def detail (text : String) : Transcript := line ("  " ++ text)

/-- A line that stands above others. -/
def header (colored : Bool) (text : String) : Transcript := line (Paint.boldCyan.apply colored text)

/-- A line that tells that something has worked. -/
def success (colored : Bool) (text : String) : Transcript :=
  line (Paint.green.apply colored "✓" ++ " " ++ text)

/-- A line with a label. -/
def labelled (colored : Bool) (label text : String) : Transcript :=
  line (Paint.green.apply colored label ++ ": " ++ text)

/-- A line of warning. -/
def warning (colored : Bool) (text : String) : Transcript :=
  ⟨"", Paint.yellow.apply colored "Warning" ++ ": " ++ text ++ "\n"⟩

/-- A line of error. -/
def error (colored : Bool) (text : String) : Transcript :=
  ⟨"", Paint.boldRed.apply colored "error" ++ ": " ++ text ++ "\n"⟩

end Transcript

end Downline
