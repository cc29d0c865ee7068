import Downline.Files.Access

/-!
# Files as a value

A `Store` holds files and directories by *location*, the list of names from the root down. A path is
followed segment by segment: `.` and the empty segment stay, `..` goes up, a name goes down, and
each of them needs a directory to start from. The root is always a directory.

Putting an entry at a location changes what is found there and nowhere else (`Store.occupant?_put`).
-/

namespace Downline.Files

/-- Names from the root down. -/
abbrev Location := List String

/-- What stands at a location. -/
inductive Entry where
  | file (content : ByteArray)
  | directory

/-- True of files. -/
def Entry.isFile : Entry → Bool
  | file _ => true
  | directory => false

/-- Files and directories, and where relative paths start. -/
structure Store where
  entries : List (Location × Entry)
  current : Location

namespace Store

/-- What stands at a location. -/
def occupant? (s : Store) (l : Location) : Option Entry :=
  if l = [] then some .directory else s.entries.lookup l

/-- True if a location holds a directory. -/
def isDirectoryAt (s : Store) (l : Location) : Bool :=
  match s.occupant? l with
  | some .directory => true
  | _ => false

/-- Puts an entry at a location. -/
def put (s : Store) (l : Location) (e : Entry) : Store :=
  { s with entries := (l, e) :: s.entries.filter fun (k, _) => k != l }

/-- Removes a location and all below it. -/
def remove (s : Store) (l : Location) : Store :=
  { s with entries := s.entries.filter fun (k, _) => !l.isPrefixOf k }

/-- Entries under another key do not matter for what is found. -/
theorem lookup_filter_ne {κ ν : Type} [BEq κ] [LawfulBEq κ] {l k : κ} (h : k ≠ l)
    (es : List (κ × ν)) : (es.filter fun (j, _) => j != l).lookup k = es.lookup k := by
  induction es with
  | nil => rfl
  | cons e es ih =>
    obtain ⟨j, e⟩ := e
    by_cases hj : j = l
    · subst hj
      have hk : (k == j) = false := beq_eq_false_iff_ne.mpr h
      simp only [bne_self_eq_false, Bool.false_eq_true, not_false_eq_true, List.filter_cons_of_neg,
        List.lookup_cons, hk]
      exact ih
    · have keep : (j != l) = true := bne_iff_ne.mpr hj
      simp only [keep, List.filter_cons_of_pos, List.lookup_cons, ih]

theorem occupant?_put (s : Store) (l k : Location) (e : Entry) (h : l ≠ []) :
    (s.put l e).occupant? k = if k = l then some e else s.occupant? k := by
  by_cases hk : k = l
  · simp [occupant?, put, hk, h]
  · have hb : (k == l) = false := by simp [hk]
    simp [occupant?, put, hk, List.lookup_cons, hb, lookup_filter_ne hk]

/-- One step along a path. The name of a last segment need not exist. -/
def step? (s : Store) (l : Location) (segment : String) : Option Location :=
  if s.isDirectoryAt l then
    if segment = "" ∨ segment = "." then some l
    else if segment = ".." then some l.dropLast
    else some (l ++ [segment])
  else none

/-- Where a path starts. -/
def origin (s : Store) (path : String) : Location := if isAbsolute path then [] else s.current

/-- The location that a path leads to, whether or not anything stands there. The empty path leads
nowhere. -/
def locate? (s : Store) (path : String) : Option Location :=
  if path = "" then none else (segments path).foldlM s.step? (s.origin path)

/-- What a path leads to. -/
def find? (s : Store) (path : String) : Option Entry := (s.locate? path).bind s.occupant?

/-- True if a path leads to a directory. -/
def isDirectory (s : Store) (path : String) : Bool := (s.locate? path).any s.isDirectoryAt

theorem isDirectory_eq_true_iff {s : Store} {path : String} :
    s.isDirectory path = true ↔ ∃ l, s.locate? path = some l ∧ s.isDirectoryAt l = true := by
  rw [isDirectory]
  cases s.locate? path <;> simp

/-- The text of a file. -/
def readText? (s : Store) (path : String) : Option String :=
  match s.find? path with
  | some (.file content) => String.fromUTF8? content
  | _ => none

/-- A text that is kept as bytes is read back. -/
theorem readText?_of_find? {s : Store} {path text : String}
    (h : s.find? path = some (.file text.toUTF8)) : s.readText? path = some text := by
  have hvalid : text.toUTF8.IsValidUTF8 := text.isValidUTF8
  simp only [readText?, h, String.fromUTF8?, dif_pos hvalid]
  rfl

/-- Makes bytes the content of a file. -/
def writeBytes? (s : Store) (path : String) (content : ByteArray) : Option Store :=
  match s.locate? path with
  | none => none
  | some l => if s.isDirectoryAt l then none else some (s.put l (.file content))

/-- Creates the directories along a path from a location on. -/
def createFrom? (s : Store) (l : Location) : List String → Option Store
  | [] => if s.isDirectoryAt l then some s else none
  | segment :: segments =>
    match s.step? l segment with
    | none => none
    | some l =>
      match s.occupant? l with
      | none => createFrom? (s.put l .directory) l segments
      | some _ => createFrom? s l segments

/-- Creates a directory and all that lead to it. -/
def createDirectories? (s : Store) (path : String) : Option Store :=
  if path = "" then some s else s.createFrom? (s.origin path) (segments path)

/-- What a listing of a location tells of an entry that stands directly inside. -/
def listed? (l : Location) (entry : Location × Entry) : Option Listed :=
  match entry.1.getLast? with
  | some name =>
    if entry.1.dropLast = l then some ⟨bytesOf name, entry.2.isFile⟩ else none
  | none => none

theorem listed?_eq_some_iff {l k : Location} {e : Entry} {listed : Listed} :
    listed? l (k, e) = some listed ↔
      ∃ name, k = l ++ [name] ∧ listed = ⟨bytesOf name, e.isFile⟩ := by
  rw [listed?]
  constructor
  · intro h
    cases hlast : k.getLast? with
    | none => simp [hlast] at h
    | some name =>
      obtain ⟨front, rfl⟩ := List.getLast?_eq_some_iff.mp hlast
      simp only [hlast, List.dropLast_concat] at h
      split at h
      next hl =>
        cases h
        exact ⟨name, by rw [hl], rfl⟩
      next => cases h
  · rintro ⟨name, rfl, rfl⟩
    simp

/-- What stands directly inside a location. -/
def listingAt (s : Store) (l : Location) : List Listed := s.entries.filterMap (listed? l)

/-- The path of a location. -/
def pathOf (l : Location) : String := "/" ++ String.intercalate "/" l

/-- Makes a change if it can be made, and tells whether it was. -/
def change (f : Store → Option Store) : StateM Store Bool := do
  match f (← get) with
  | none => return false
  | some s => do
    set s
    return true

instance : FileAccess (StateM Store) where
  readText? path := do return (← get).readText? path
  writeText path text := change (·.writeBytes? path text.toUTF8)
  pathExists path := do return ((← get).find? path).isSome
  isDirectory path := do return (← get).isDirectory path
  createDirectories path := change (·.createDirectories? path)
  listing? path := do
    let s ← get
    match s.locate? path with
    | none => return none
    | some l => return if s.isDirectoryAt l then some (s.listingAt l) else none
  currentDirectory? := do
    let s ← get
    return if s.isDirectoryAt s.current then some (pathOf s.current) else none

end Store

end Downline.Files
