import Downline.Organization.Basic
import Downline.Fault

/-!
# Rows of an organization

A canvas shows an organization row by row: row `d` holds the members `d` steps below the top, in
breadth-first order. `Organization.levels` computes the rows in one sweep with a first-in
first-out queue. `Organization.generations` says what the rows are without a queue: the next row
is the children of this one, family after family.

The sweep hands each member to `Levels.add?`, which has no answer when the row asked for lies
beyond the next one; the queue never asks for such a row.
-/

namespace Downline

/-- A member as it stands in its row. -/
structure LevelEntry where
  member : Member
  depth : Nat
  childCount : Nat
  deriving DecidableEq, Repr

namespace LevelEntry

def ofNode (o : Organization) (depth : Nat) : LevelEntry :=
  ⟨o.member, depth, o.children.length⟩

/-- The description of a member card that is read aloud. -/
def ariaLabel (e : LevelEntry) : String :=
  e.member.name ++ ", 직급 " ++ e.member.rank ++ ", 좌측 PV " ++ toString e.member.pvLeft.toNat
    ++ ", 우측 PV " ++ toString e.member.pvRight.toNat

end LevelEntry

/-- Rows indexed by depth, each in breadth-first order. -/
structure Levels where
  rows : List (List LevelEntry)
  deriving DecidableEq, Repr

namespace Levels

def empty : Levels := ⟨[]⟩

/-- Number of rows. -/
def length (l : Levels) : Nat := l.rows.length

def isEmpty (l : Levels) : Bool := l.rows.isEmpty

def row? (l : Levels) (depth : Nat) : Option (List LevelEntry) := l.rows[depth]?

/-- Number of members in all rows. -/
def nodeCount (l : Levels) : Nat := l.rows.foldr (fun row n => row.length + n) 0

/-- Width of the widest row; it decides how wide the canvas is. -/
def maxWidth (l : Levels) : Nat := (l.rows.map List.length).foldl max 0

/-- Adds a member at the end of its row, which may be the one after the last. -/
def add? (l : Levels) (e : LevelEntry) : Option Levels :=
  let rows := if l.rows.length = e.depth then l.rows ++ [[]] else l.rows
  if e.depth < rows.length then some ⟨rows.modify e.depth (· ++ [e])⟩ else none

/-- The total of a measure over a row. -/
def rowTotal (measure : LevelEntry → Nat) (row : List LevelEntry) : Nat :=
  row.foldr (fun e n => measure e + n) 0

/-- Totals of one row. -/
structure Summary where
  depth : Nat
  width : Nat
  pvLeft : Nat
  pvRight : Nat
  deriving DecidableEq, Repr

/-- One total per row, in order of depth. The totals are exact natural numbers. Volumes that are
added up in words of 64 bits come to them only where the total fits such a word, and have no sum
elsewhere (`sumOfWords?_eq_some_iff`). -/
def summary (l : Levels) : List Summary :=
  l.rows.zipIdx.map fun (row, depth) =>
    { depth
      width := row.length
      pvLeft := rowTotal (·.member.pvLeft.toNat) row
      pvRight := rowTotal (·.member.pvRight.toNat) row }

end Levels

namespace Organization

/-- Takes the queue's first node, adds it to its row and puts its children at the end of the
queue, one row further down. -/
def sweep? : List (Organization × Nat) → Levels → Option Levels
  | [], rows => some rows
  | (node m cs, depth) :: queue, rows =>
    match rows.add? (.ofNode (node m cs) depth) with
    | none => none
    | some rows => sweep? (queue ++ cs.map (·, depth + 1)) rows
termination_by queue => sizeAll (queue.map Prod.fst)
decreasing_by simp [Function.comp_def]; omega

/-- The rows of an organization. -/
def levels (o : Organization) : Levels := (sweep? [(o, 0)] .empty).getD .empty

/-- The rows below and including a list of siblings and cousins: that list, then what its members
have below them. -/
def generationsOf (os : List Organization) : List (List Organization) :=
  match os with
  | [] => []
  | o :: os => (o :: os) :: generationsOf ((o :: os).flatMap children)
termination_by sizeAll os
decreasing_by
  have shrink : ∀ ps : List Organization, ps ≠ [] → sizeAll (ps.flatMap children) < sizeAll ps := by
    intro ps h
    induction ps with
    | nil => exact absurd rfl h
    | cons p ps ih =>
      cases p with
      | node m cs =>
        by_cases hps : ps = []
        · simp [hps]
        · have := ih hps
          simp only [List.flatMap_cons, children_node, sizeAll_append, sizeAll_cons, size_node]
          omega
  exact shrink _ (by simp)

/-- The rows of an organization as trees: the top, the top's children, their children and so
on. -/
def generations (o : Organization) : List (List Organization) := generationsOf [o]

/-- The rows of an optional root. Absence is a fault of its own, so that "no data" is told apart
from an empty answer. -/
def flatten (root : Option Organization) : Except Fault Levels :=
  match root with
  | none => .error .rootAbsent
  | some o => .ok o.levels

end Organization

end Downline
