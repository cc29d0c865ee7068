import Downline.Status
import Downline.Terminal

/-!
# Badges on the terminal

A badge is the label of a standing in brackets, painted by its tone.
-/

namespace Downline

/-- The paint of a tone; neutral badges stay plain. -/
def Tone.paint : Tone → Paint
  | success => .green
  | info => .blue
  | warning => .yellow
  | neutral => .plain
  | danger => .red

/-- The badge of a standing. -/
def Status.badge (s : Status) (colored : Bool) : String :=
  s.tone.paint.apply colored ("[" ++ s.label ++ "]")

end Downline
