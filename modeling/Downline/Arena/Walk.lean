import Downline.Arena.Basic
import Downline.Organization.Basic
import Downline.Organization.Levels
import Downline.Drawing

/-!
# Walks through an arena

Both walks start at the root and keep the nodes still to be visited in a list, the next one in
front. The first visits each node before its children, the second after them. An arena's nodes
are never visited twice, so as many steps as there are nodes, or twice as many, are enough; that
number is the fuel of the walks.

Searching, measuring, drawing and the nested tree all read one of the two walks.
-/

namespace Downline.Arena

/-- Visits pending nodes, each before its children. A pending handle that names no node ends the
walk. -/
def preorderFrom (a : Arena) : Nat → List Nat → List (Nat × ArenaNode)
  | 0, _ => []
  | _ + 1, [] => []
  | fuel + 1, h :: rest =>
    match a.node? h with
    | none => []
    | some n => (h, n) :: preorderFrom a fuel (n.children ++ rest)

/-- The nodes below the root, each before its children, children from left to right. -/
def preorder (a : Arena) : List (Nat × ArenaNode) := a.preorderFrom a.size a.root.toList

/-- Visits pending nodes, each after its children. The flag tells whether the children of a
pending node have been put in front of it; a pending handle that names no node is left out. -/
def postorderFrom (a : Arena) : Nat → List (Nat × Bool) → List (Nat × ArenaNode)
  | 0, _ => []
  | _ + 1, [] => []
  | fuel + 1, (h, met) :: rest =>
    match a.node? h with
    | none => postorderFrom a fuel rest
    | some n =>
      if met then (h, n) :: postorderFrom a fuel rest
      else postorderFrom a fuel (n.children.map (·, false) ++ (h, true) :: rest)

/-- The nodes below the root, each after its children, children from left to right. -/
def postorder (a : Arena) : List (Nat × ArenaNode) :=
  a.postorderFrom (2 * a.size) (a.root.toList.map (·, false))

/-- The handle of the first node that carries an id. -/
def find? (a : Arena) (id : String) : Option Nat :=
  (a.preorder.find? fun (_, n) => n.member.id = id).map Prod.fst

/-- Number of rows; an arena without nodes has none. -/
def depth (a : Arena) : Nat := (a.preorder.map fun (_, n) => n.depth + 1).foldl max 0

/-- Ids of the nodes without children, in the order of the first walk. -/
def leafIds (a : Arena) : List String :=
  (a.preorder.filter fun (_, n) => n.children.isEmpty).map fun (_, n) => n.member.id

/-- The finished subtrees after one more node of the second walk, latest first. The node's children
are the latest ones, as many as it has; `none` if fewer are finished. -/
def finish? (built : List (Nat × Organization)) (h : Nat) (n : ArenaNode) :
    Option (List (Nat × Organization)) :=
  let count := n.children.length
  if count ≤ built.length then
    some ((h, .node n.member ((built.take count).reverse.map Prod.snd)) :: built.drop count)
  else none

/-- The finished subtrees after the second walk, latest first. -/
def finished? (a : Arena) : Option (List (Nat × Organization)) :=
  a.postorder.foldlM (fun built (h, n) => finish? built h n) []

/-- The arena as a nested tree, from the bottom up. Absent if there is no root. -/
def organization? (a : Arena) : Option Organization := do
  let root ← a.root
  let built ← a.finished?
  match built with
  | (h, o) :: _ => if h = root then some o else none
  | [] => none

/-- The label of a node in a drawing: its leg, if it has one, and its member. -/
def nodeLabel (n : ArenaNode) : String :=
  match n.leg with
  | none => n.member.label
  | some leg => leg.letter ++ ": " ++ n.member.label

/-- The drawing of an arena; without a root it is a single label that says so. -/
def drawing (a : Arena) : Drawing :=
  (Drawing.assemble? (a.postorder.map fun (_, n) => (nodeLabel n, n.children.length))).getD
    (.node "Empty tree" [])

end Downline.Arena
