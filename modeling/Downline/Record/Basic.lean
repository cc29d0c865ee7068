import Downline.Member

/-!
# Records

A record is the stored form of a member: the member, the id of the parent it hangs below, absent
for the root, and the leg it hangs on.
-/

namespace Downline

/-- Stored form of a member of an organization. -/
structure Record where
  member : Member
  parentId : Option String
  leg : Option Leg
  deriving DecidableEq, Repr

namespace Record

def id (r : Record) : String := r.member.id

end Record

end Downline
