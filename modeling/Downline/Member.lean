import Downline.Status

/-!
# Members and the legs they hang on

What is known of one member, whatever shape the organization around it has: an id, a display
name, a rank, the point volumes of its two sides and its standing. The same six fields travel
through records, nested trees, arenas and rows.
-/

namespace Downline

/-- One member of an organization. -/
structure Member where
  id : String
  name : String
  rank : String
  /-- Point volume of the left side. -/
  pvLeft : UInt64
  /-- Point volume of the right side. -/
  pvRight : UInt64
  status : Status
  deriving DecidableEq, Repr

namespace Member

/-- Name and id, as in `Kim Minji (root)`. -/
def title (m : Member) : String := m.name ++ " (" ++ m.id ++ ")"

/-- The line that stands for a member in a drawing: title, rank unless it is empty, and standing
in brackets. -/
def label (m : Member) : String :=
  if m.rank = "" then m.title ++ " [" ++ m.status.name ++ "]"
  else m.title ++ " " ++ m.rank ++ " [" ++ m.status.name ++ "]"

end Member

/-- Leg of a binary tree. -/
inductive Leg where
  | left
  | right
  deriving DecidableEq, Repr

namespace Leg

/-- The letter that names a leg. -/
def letter : Leg → String
  | left => "L"
  | right => "R"

def ofLetter? (s : String) : Option Leg :=
  if s = "L" then some left else if s = "R" then some right else none

theorem ofLetter?_letter (l : Leg) : ofLetter? l.letter = some l := by
  cases l <;> decide

end Leg

/-- Shape of an organization tree. -/
inductive TreeType where
  /-- Any number of children; a new member hangs directly below its sponsor. -/
  | unilevel
  /-- At most a left and a right child; a new member spills down to the first free leg. -/
  | binary
  deriving DecidableEq, Repr

namespace TreeType

def name : TreeType → String
  | unilevel => "unilevel"
  | binary => "binary"

/-- The shape that a written name means; letter case counts. -/
def ofName? (s : String) : Option TreeType :=
  if s = "unilevel" then some unilevel else if s = "binary" then some binary else none

theorem ofName?_name (t : TreeType) : ofName? t.name = some t := by
  cases t <;> decide

end TreeType

end Downline
