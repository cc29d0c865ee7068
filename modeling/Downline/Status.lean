/-!
# Standing of a member

A member of an organization is active, on hold or under warning. Each standing has a written
name, a badge label and a tone; the tone alone decides the colours of the badge, which are style
sheet references under a freely chosen prefix.

The tables below are total matches on purpose: a new standing does not compile until every table
has a line for it.
-/

namespace Downline

/-- The prefix of style sheet variables when none is chosen. -/
def defaultVarPrefix : String := "aeg"

/-- The family of colours that a badge is drawn in. -/
inductive Tone where
  | success
  | info
  | warning
  | neutral
  | danger
  deriving DecidableEq, Repr

namespace Tone

/-- The word that stands for the tone in variable names. -/
def name : Tone → String
  | success => "success"
  | info => "info"
  | warning => "warning"
  | neutral => "neutral"
  | danger => "danger"

/-- Reference to the background colour of the tone, such as
`var(--aeg-status-success-background)`. -/
def background (t : Tone) (varPrefix : String) : String :=
  "var(--" ++ varPrefix ++ "-status-" ++ t.name ++ "-background)"

/-- Reference to the text colour of the tone. -/
def foreground (t : Tone) (varPrefix : String) : String :=
  "var(--" ++ varPrefix ++ "-status-" ++ t.name ++ "-foreground)"

end Tone

/-- The colours of one badge. -/
structure BadgeStyle where
  tone : Tone
  background : String
  foreground : String
  deriving DecidableEq, Repr

/-- Standing of a member in the organization. -/
inductive Status where
  | active
  | hold
  | warning
  deriving DecidableEq, Repr

namespace Status

/-- The written name of a standing, in documents and on the terminal. -/
def name : Status → String
  | active => "active"
  | hold => "hold"
  | warning => "warning"

/-- The standing that a written name means. Besides the names themselves, `on-hold` and
`on_hold` are read as `hold`; letter case counts. -/
def ofName? (s : String) : Option Status :=
  if s = "active" then some active
  else if s = "hold" ∨ s = "on-hold" ∨ s = "on_hold" then some hold
  else if s = "warning" then some warning
  else none

/-- The tone of a standing: hold is drawn as a warning, warning as a danger. -/
def tone : Status → Tone
  | active => .success
  | hold => .warning
  | warning => .danger

/-- The label on the badge of a member card. -/
def label : Status → String
  | active => "활성"
  | hold => "보류"
  | warning => "경고"

/-- The badge of a standing: its tone and that tone's colours. -/
def style (s : Status) (varPrefix : String) : BadgeStyle :=
  ⟨s.tone, s.tone.background varPrefix, s.tone.foreground varPrefix⟩

theorem ofName?_name (s : Status) : ofName? s.name = some s := by
  cases s <;> decide

end Status

end Downline
