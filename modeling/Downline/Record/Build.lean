import Downline.Record.Basic
import Downline.Arena.Basic
import Downline.Fault

/-!
# From records to an arena

A list of records makes an arena if it is one rooted tree. What is checked, in this order:

* there is a record at all;
* no id occurs twice;
* going through the records once, no second record is without a parent and every parent named is
  the id of a record;
* every record is reached from the root, so no parent links run in a circle.

A record that is not reached is found by its absence: the arena grown from the root then holds
fewer nodes than there are records.

The `Builder` keeps the index of families of the last list it was given. Each build starts it
afresh, so a builder may be used any number of times.
-/

namespace Downline

/-- For each parent id the places, in the list of records, of the records that name it. -/
abbrev Families := List (String × List Nat)

namespace Families

/-- The places recorded under a parent id, in the order in which they were added. -/
def of (f : Families) (parentId : String) : List Nat :=
  match f with
  | [] => []
  | (p, places) :: f => if p = parentId then places else Families.of f parentId

/-- Records one more place under a parent id. -/
def add (f : Families) (parentId : String) (place : Nat) : Families :=
  match f with
  | [] => [(parentId, [place])]
  | (p, places) :: f =>
    if p = parentId then (p, places ++ [place]) :: f
    else (p, places) :: Families.add f parentId place

theorem of_add (f : Families) (p q : String) (i : Nat) :
    (f.add p i).of q = if p = q then f.of q ++ [i] else f.of q := by
  induction f with
  | nil => by_cases h : p = q <;> simp [add, of, h]
  | cons e f ih =>
    obtain ⟨r, places⟩ := e
    by_cases hr : r = p <;> by_cases hp : p = q <;> by_cases hq : r = q <;> simp_all [add, of]

end Families

namespace Record

/-- The first id that an earlier record carries too; `seen` holds the earlier ids. -/
def firstRepeated? (seen : List String) : List Record → Option String
  | [] => none
  | r :: rs => if r.id ∈ seen then some r.id else firstRepeated? (r.id :: seen) rs

/-- What one pass over the records finds: the root and the families. -/
structure Survey where
  root : Option (Nat × String)
  families : Families

/-- Adds one record, at its place in the list, to what the pass has found. `known` holds the ids of
all records. -/
def survey (known : List String) (found : Survey) (r : Record) (place : Nat) :
    Except Fault Survey :=
  match r.parentId with
  | none =>
    match found.root with
    | some (_, first) => .error (.multipleRoots first r.id)
    | none => .ok { found with root := some (place, r.id) }
  | some parent =>
    if parent ∈ known then .ok { found with families := found.families.add parent place }
    else .error (.unknownParent r.id parent)

/-- One pass over the records from a given place on. -/
def surveyFrom (known : List String) (found : Survey) (place : Nat) :
    List Record → Except Fault Survey
  | [] => .ok found
  | r :: rs =>
    match survey known found r place with
    | .error fault => .error fault
    | .ok found => surveyFrom known found (place + 1) rs

/-- True of a record on the right leg. -/
def onRight (records : List Record) (place : Nat) : Bool :=
  ((records[place]?).bind (·.leg)) == some .right

/-- The places of a family as they are laid out: all that are not on the right leg come first, and
otherwise the order of the records is kept. -/
def laidOut (records : List Record) (family : List Nat) : List Nat :=
  family.filter (fun i => !onRight records i) ++ family.filter (onRight records)

/-- Grows an arena from pending places, each with the handle of its parent. The families of
distinct ids share no place, so no more steps are needed than there are records. -/
def grow (records : List Record) (families : Families) :
    Nat → List (Nat × Option Nat) → Arena → Arena
  | 0, _, a => a
  | _ + 1, [], a => a
  | fuel + 1, (place, parent) :: pending, a =>
    match records[place]? with
    | none => grow records families fuel pending a
    | some r =>
      let (a, handle) := a.insert r.member parent r.leg
      let family := laidOut records (families.of r.id)
      grow records families fuel (family.map (·, some handle) ++ pending) a

/-- The id of the first record that no node of the arena carries. -/
def firstDetached? (records : List Record) (a : Arena) : Option String :=
  (records.find? fun r => !a.nodes.any fun n => n.member.id == r.id).map id

end Record

/-- Builds arenas from lists of records, one after the other. -/
structure Builder where
  families : Families

namespace Builder

def new : Builder := ⟨[]⟩

/-- Builds the arena of a list of records, or says why it is not one rooted tree. -/
def build (b : Builder) (records : List Record) : Except Fault Arena × Builder :=
  match records with
  | [] => (.error .emptyOrganization, b)
  | first :: _ =>
    match Record.firstRepeated? [] records with
    | some id => (.error (.duplicateNode id), ⟨[]⟩)
    | none =>
      match Record.surveyFrom (records.map Record.id) ⟨none, []⟩ 0 records with
      | .error fault => (.error fault, ⟨[]⟩)
      | .ok found =>
        match found.root with
        | none => (.error (.cycleDetected first.id), ⟨found.families⟩)
        | some (root, _) =>
          let a := Record.grow records found.families records.length [(root, none)] .empty
          if a.size = records.length then (.ok a, ⟨found.families⟩)
          else
            (.error (.cycleDetected ((Record.firstDetached? records a).getD "")),
              ⟨found.families⟩)

end Builder

/-- The arena of a list of records. -/
def Arena.ofRecords (records : List Record) : Except Fault Arena := (Builder.new.build records).1

end Downline
