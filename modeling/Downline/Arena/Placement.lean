import Downline.Arena.Walk
import Downline.Fault

/-!
# Placing a new member

A new member is placed below a sponsor. In a unilevel tree it becomes the sponsor's last child. In
a binary tree it takes the first free leg, found breadth-first from the sponsor down: of each node
the left leg first, then the right. Children that stand on neither leg do not count, and the
search does not go through them.

Placing answers a `Placement` or a fault, together with the arena afterwards.
-/

namespace Downline

/-- Where a new member ended up. -/
structure Placement where
  handle : Nat
  parentId : String
  leg : Option Leg
  depth : Nat
  /-- True when the member hangs below someone other than its sponsor. -/
  spillover : Bool
  deriving DecidableEq, Repr

namespace Arena

/-- The first child of a node that stands on the given leg. -/
def onLeg? (a : Arena) (n : ArenaNode) (leg : Leg) : Option Nat :=
  n.children.find? fun c => (a.node? c).bind (·.leg) = some leg

/-- Looks through a queue of candidates for a free leg; a candidate with both legs taken sends the
nodes on them to the end of the queue. -/
def freeLegFrom (a : Arena) : Nat → List Nat → Option (Nat × Leg)
  | 0, _ => none
  | _ + 1, [] => none
  | fuel + 1, h :: queue =>
    match a.node? h with
    | none => none
    | some n =>
      match a.onLeg? n .left with
      | none => some (h, .left)
      | some left =>
        match a.onLeg? n .right with
        | none => some (h, .right)
        | some right => freeLegFrom a fuel (queue ++ [left, right])

/-- The first free leg at or below a node. Below most nodes each node is a candidate once at most. A
start that is its own child comes up once per row, and what hangs on its other leg along with it;
the rows above the first free leg are full, so four times the number of nodes are enough steps. -/
def freeLeg? (a : Arena) (start : Nat) : Option (Nat × Leg) := a.freeLegFrom (4 * a.size) [start]

/-- The parent and leg for a new member of the given sponsor. -/
def seat? (a : Arena) (sponsor : Nat) : TreeType → Option (Nat × Option Leg)
  | .unilevel => some (sponsor, none)
  | .binary => (a.freeLeg? sponsor).map fun (parent, leg) => (parent, some leg)

/-- Places a new member below a sponsor. The id must be new among the nodes below the root, and the
sponsor must be one of them; a repeated id is reported first. -/
def place (a : Arena) (sponsorId : String) (member : Member) (shape : TreeType) :
    Except Fault Placement × Arena :=
  if (a.find? member.id).isSome then (.error (.duplicateNode member.id), a)
  else
    match a.find? sponsorId with
    | none => (.error (.nodeNotFound sponsorId), a)
    | some sponsor =>
      match a.seat? sponsor shape with
      | none => (.error (.noBinarySlot sponsorId), a)
      | some (parent, leg) =>
        let (grown, handle) := a.insert member (some parent) leg
        match grown.node? parent with
        | none => (.error (.nodeNotFound sponsorId), grown)
        | some above =>
          (.ok ⟨handle, above.member.id, leg, above.depth + 1, parent != sponsor⟩, grown)

end Arena

end Downline
