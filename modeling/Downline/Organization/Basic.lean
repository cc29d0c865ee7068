import Downline.Member

/-!
# The organization as a nested tree

An organization is a member with the organizations below it, from left to right. Functions come
in pairs, one for an organization and one for a list of them; the second is always the `map` or
the sum of the first.

Counting is defined twice. `Organization.size` follows the tree, `Organization.nodeCount` keeps
the pending nodes in a list and so needs no stack however deep the tree is.
-/

namespace Downline

/-- A member with the organizations below it, ordered from left to right. -/
inductive Organization where
  | node (member : Member) (children : List Organization)
  deriving Repr

namespace Organization

/-- The member at the top. -/
def member : Organization → Member
  | node m _ => m

/-- The organizations directly below the top. -/
def children : Organization → List Organization
  | node _ cs => cs

@[simp] theorem member_node (m : Member) (cs : List Organization) : (node m cs).member = m := rfl

@[simp] theorem children_node (m : Member) (cs : List Organization) :
    (node m cs).children = cs := rfl

mutual

/-- Equality of organizations is decided member by member. -/
def decEq : (a b : Organization) → Decidable (a = b)
  | node m cs, node n ds =>
    if h : m = n then
      match decEqList cs ds with
      | isTrue hcs => isTrue (by rw [h, hcs])
      | isFalse hcs => isFalse (by intro e; injection e; contradiction)
    else isFalse (by intro e; injection e; contradiction)

def decEqList : (as bs : List Organization) → Decidable (as = bs)
  | [], [] => isTrue rfl
  | [], _ :: _ => isFalse (by simp)
  | _ :: _, [] => isFalse (by simp)
  | a :: as, b :: bs =>
    match decEq a b with
    | isFalse h => isFalse (by intro e; injection e; contradiction)
    | isTrue h =>
      match decEqList as bs with
      | isTrue hs => isTrue (by rw [h, hs])
      | isFalse hs => isFalse (by intro e; injection e; contradiction)

end

instance : DecidableEq Organization := decEq

mutual

/-- Number of members, counted along the tree. -/
def size : Organization → Nat
  | node _ cs => sizeAll cs + 1

def sizeAll : List Organization → Nat
  | [] => 0
  | o :: os => o.size + sizeAll os

end

@[simp] theorem size_node (m : Member) (cs : List Organization) :
    (node m cs).size = sizeAll cs + 1 := by rw [size]

@[simp] theorem sizeAll_nil : sizeAll [] = 0 := by rw [sizeAll]

@[simp] theorem sizeAll_cons (o : Organization) (os : List Organization) :
    sizeAll (o :: os) = o.size + sizeAll os := by rw [sizeAll]

@[simp] theorem sizeAll_append (os ps : List Organization) :
    sizeAll (os ++ ps) = sizeAll os + sizeAll ps := by
  induction os with
  | nil => simp
  | cons o os ih => simp [ih, Nat.add_assoc]

/-- True of a member with nobody below. -/
def isLeaf (o : Organization) : Bool := o.children.isEmpty

/-- Takes pending nodes one at a time, counts each and puts its children in front of the rest. -/
def countPending : List Organization → Nat → Nat
  | [], n => n
  | node _ cs :: rest, n => countPending (cs ++ rest) (n + 1)
termination_by pending => sizeAll pending
decreasing_by simp

/-- Number of members, counted from a list of pending nodes. -/
def nodeCount (o : Organization) : Nat := countPending [o] 0

mutual

/-- The members from the top down, each before the members below it. -/
def preorder : Organization → List Member
  | node m cs => m :: preorderAll cs

def preorderAll : List Organization → List Member
  | [] => []
  | o :: os => o.preorder ++ preorderAll os

end

mutual

/-- Number of generations: one more than the tallest organization below the top. -/
def height : Organization → Nat
  | node _ cs => heightAll cs + 1

def heightAll : List Organization → Nat
  | [] => 0
  | o :: os => max o.height (heightAll os)

end

end Organization

end Downline
