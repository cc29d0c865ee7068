import Downline.Member

/-!
# The arena

An arena keeps an organization as a table of nodes that refer to each other by *handle*, the
number of a node in order of insertion. Nodes are only ever added. A node inserted below a parent
that is not in the arena is kept but hangs nowhere, and a node inserted without a parent becomes
the root; so an arena may hold nodes that cannot be reached from its root.

What a node hangs on is settled when it is inserted: `Link.adrift` stays adrift although a later
node may get the handle that was named. One handle that names no node yet is special, the one that
the new node is about to get: such a node is adrift and lists itself as its only child.
-/

namespace Downline

/-- What a node of an arena hangs on. -/
inductive Link where
  /-- Inserted without a parent. -/
  | top
  /-- Inserted below a node of the arena. -/
  | below (parent : Nat)
  /-- Inserted below a handle that named no node then. -/
  | adrift (named : Nat)
  deriving DecidableEq, Repr

/-- The handle that was named as parent at insertion, whether or not it named a node. -/
def Link.named? : Link → Option Nat
  | top => none
  | below p => some p
  | adrift p => some p

/-- A node of an arena. -/
structure ArenaNode where
  member : Member
  link : Link
  /-- Handles of the nodes below, from left to right. -/
  children : List Nat
  /-- Leg below the parent, in binary trees only. -/
  leg : Option Leg
  depth : Nat
  deriving DecidableEq, Repr

/-- Nodes by handle, and the handle of the root. -/
structure Arena where
  nodes : Array ArenaNode
  root : Option Nat
  deriving DecidableEq, Repr

namespace Arena

def empty : Arena := ⟨#[], none⟩

/-- Number of nodes, reachable or not. -/
def size (a : Arena) : Nat := a.nodes.size

def isEmpty (a : Arena) : Bool := a.nodes.isEmpty

def node? (a : Arena) (h : Nat) : Option ArenaNode := a.nodes[h]?

/-- Adds a node and answers its handle. Below a node of the arena it becomes that node's last child,
one deeper; without a parent it becomes the root. A node that names itself is its own child. -/
def insert (a : Arena) (member : Member) (parent : Option Nat) (leg : Option Leg) : Arena × Nat :=
  match parent with
  | none => (⟨a.nodes.push ⟨member, .top, [], leg, 0⟩, some a.size⟩, a.size)
  | some p =>
    match a.node? p with
    | none =>
      let children := if p = a.size then [a.size] else []
      (⟨a.nodes.push ⟨member, .adrift p, children, leg, 0⟩, a.root⟩, a.size)
    | some above =>
      let adopted := a.nodes.modify p fun n => { n with children := n.children ++ [a.size] }
      (⟨adopted.push ⟨member, .below p, [], leg, above.depth + 1⟩, a.root⟩, a.size)

end Arena

end Downline
