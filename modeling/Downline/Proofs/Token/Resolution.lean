import Downline.Token.Path
import Mathlib.Data.List.Basic

/-!
# Following dotted paths

A path leads to a value if each of its segments is a key of the object reached so far (`Leads`), and
it is blocked at a segment if those in front of it lead to a value without that key (`Blocked`). One
of the two is the case, and `resolve` tells which.

Paths compose: what follows a point is resolved in the object that the path in front of it leads to
(`resolve_composes`). A fault names the path as a whole, so a path that fails behind the point is
not blamed by itself; only its segment is kept. A key that holds a point is no segment of any path.
-/

namespace Downline.Token

open Json

/-! ## Segments -/

theorem pathSegments_ne_nil (path : String) : pathSegments path ≠ [] :=
  fun h => Text.pieces_ne_nil '.' path.toList (List.map_eq_nil_iff.mp h)

theorem pathSegments_of_notMem {key : String} (h : '.' ∉ key.toList) :
    pathSegments key = [key] := by
  rw [pathSegments, Text.pieces_of_notMem h, List.map_singleton, String.ofList_toList]

/-- A point between two paths separates their segments, whatever the paths are. -/
theorem pathSegments_append (p q : String) :
    pathSegments (p ++ "." ++ q) = pathSegments p ++ pathSegments q := by
  have hpoint : ".".toList = ['.'] := rfl
  rw [pathSegments, String.toList_append, String.toList_append, hpoint, List.append_assoc,
    List.singleton_append, Text.pieces_append_cons, List.map_append]
  rfl

/-- Keys that are joined by points come apart into their own segments. -/
theorem pathSegments_intercalate (key : String) (keys : List String) :
    pathSegments (String.intercalate "." (key :: keys)) = (key :: keys).flatMap pathSegments := by
  induction keys generalizing key with
  | nil => rw [String.intercalate_singleton, List.flatMap_singleton]
  | cons next keys ih =>
    rw [String.intercalate_cons_cons, pathSegments_append, ih, List.flatMap_cons (x := key)]

theorem flatMap_pathSegments {keys : List String} (h : ∀ key ∈ keys, '.' ∉ key.toList) :
    keys.flatMap pathSegments = keys := by
  have hsegments : keys.flatMap pathSegments = keys.flatMap fun key => [key] :=
    List.flatMap_congr fun key hkey => pathSegments_of_notMem (h key hkey)
  rw [hsegments, List.flatMap_singleton']

/-- No segment holds a point. -/
theorem notMem_of_mem_pathSegments {path segment : String} (h : segment ∈ pathSegments path) :
    '.' ∉ segment.toList := by
  obtain ⟨piece, hpiece, rfl⟩ := List.mem_map.mp h
  rw [String.toList_ofList]
  exact Text.notMem_of_mem_pieces hpiece

theorem intercalate_pathSegments (path : String) :
    String.intercalate "." (pathSegments path) = path := by
  have hjoined := Text.ofList_join '.' (Text.pieces '.' path.toList)
  rw [Text.join_pieces, String.ofList_toList] at hjoined
  exact hjoined.symm

/-- **The segments of a path are what stands between its points**: one or more texts without points
that make up the path, with points between them. -/
theorem pathSegments_eq_iff {path : String} {segments : List String} :
    pathSegments path = segments ↔
      segments ≠ [] ∧ (∀ segment ∈ segments, '.' ∉ segment.toList) ∧
        String.intercalate "." segments = path := by
  constructor
  · rintro rfl
    exact ⟨pathSegments_ne_nil path, fun _ => notMem_of_mem_pathSegments,
      intercalate_pathSegments path⟩
  · rintro ⟨hne, hplain, rfl⟩
    obtain ⟨key, keys, rfl⟩ := List.exists_cons_of_ne_nil hne
    rw [pathSegments_intercalate, flatMap_pathSegments hplain]

/-- What stands in front of the first point of a path. -/
def firstSegment (path : String) : String := String.ofList (path.toList.takeWhile (· != '.'))

theorem exists_pathSegments_eq (path : String) :
    ∃ segments, pathSegments path = firstSegment path :: segments := by
  obtain ⟨ps, hps⟩ := Text.exists_pieces_eq '.' path.toList
  exact ⟨ps.map String.ofList, by rw [pathSegments, hps, List.map_cons, firstSegment]⟩

/-! ## Following segments -/

/-- Keys that lead from a value to another one, each a key of the object reached so far. -/
inductive Leads : Value → List String → Value → Prop where
  | here (v : Value) : Leads v [] v
  | down {v w u : Value} {key : String} {keys : List String} (h : v.get? key = some w)
      (rest : Leads w keys u) : Leads v (key :: keys) u

/-- The segments in front of one lead to a value that has no such key. -/
def Blocked (v : Value) (segments : List String) (segment : String) : Prop :=
  ∃ front back w, segments = front ++ segment :: back ∧ Leads v front w ∧ w.get? segment = none

theorem descend_cons {v w : Value} {key : String} (h : v.get? key = some w) (keys : List String) :
    descend v (key :: keys) = descend w keys := by
  rw [descend, h]

theorem descend_of_get?_none {v : Value} {segment : String} (h : v.get? segment = none)
    (segments : List String) : descend v (segment :: segments) = .error segment := by
  rw [descend, h]

theorem descend_of_leads {v w : Value} {segments : List String} (h : Leads v segments w) :
    descend v segments = .ok w := by
  induction h with
  | here => rfl
  | down hkey _ ih => rw [descend_cons hkey, ih]

theorem leads_of_descend {v w : Value} {segments : List String}
    (h : descend v segments = .ok w) : Leads v segments w := by
  induction segments generalizing v with
  | nil =>
    cases h
    exact .here _
  | cons segment segments ih =>
    cases hkey : v.get? segment with
    | none =>
      rw [descend, hkey] at h
      cases h
    | some u =>
      rw [descend_cons hkey] at h
      exact .down hkey (ih h)

/-- **Segments are followed to the value that they lead to.** -/
theorem descend_eq_ok_iff {v w : Value} {segments : List String} :
    descend v segments = .ok w ↔ Leads v segments w :=
  ⟨leads_of_descend, descend_of_leads⟩

/-- What follows the segments of a path goes on from the value that they lead to. -/
theorem descend_append (v : Value) (front back : List String) :
    descend v (front ++ back) = (descend v front).bind (descend · back) := by
  induction front generalizing v with
  | nil => rfl
  | cons segment front ih =>
    rw [List.cons_append, descend, descend]
    cases v.get? segment with
    | none => rfl
    | some w => exact ih w

/-- **The segment to blame is the first one at which there is no way on.** -/
theorem descend_eq_error_iff {v : Value} {segments : List String} {segment : String} :
    descend v segments = .error segment ↔ Blocked v segments segment := by
  constructor
  · intro h
    induction segments generalizing v with
    | nil => cases h
    | cons key segments ih =>
      cases hkey : v.get? key with
      | none =>
        rw [descend_of_get?_none hkey] at h
        cases h
        exact ⟨[], segments, v, rfl, .here v, hkey⟩
      | some w =>
        rw [descend_cons hkey] at h
        obtain ⟨front, back, u, rfl, hleads, hnone⟩ := ih h
        exact ⟨key :: front, back, u, rfl, .down hkey hleads, hnone⟩
  · rintro ⟨front, back, w, rfl, hleads, hnone⟩
    rw [descend_append, descend_of_leads hleads, Except.bind, descend_of_get?_none hnone]

/-! ## Resolving paths -/

theorem resolve_eq_ok_iff {source : Entries} {path : String} {v : Value} :
    resolve source path = .ok v ↔ Leads (.object source) (pathSegments path) v := by
  rw [← descend_eq_ok_iff, resolve]
  cases descend (.object source) (pathSegments path) <;> simp

theorem resolve_eq_error_iff {source : Entries} {path : String} {fault : Fault} :
    resolve source path = .error fault ↔
      ∃ segment, fault = .tokenPath path segment ∧
        Blocked (.object source) (pathSegments path) segment := by
  simp only [← descend_eq_error_iff, resolve]
  cases descend (.object source) (pathSegments path) with
  | error segment => simp [eq_comm]
  | ok v => simp

/-- The fault of a path, told of a longer path that has the same segment to blame. -/
def faultAlong (path : String) : Fault → Fault
  | .tokenPath _ segment => .tokenPath path segment
  | fault => fault

theorem resolve_append (source : Entries) (p q : String) :
    resolve source (p ++ "." ++ q) =
      match resolve source p with
      | .ok (.object inner) => (resolve inner q).mapError (faultAlong (p ++ "." ++ q))
      | .ok _ => .error (.tokenPath (p ++ "." ++ q) (firstSegment q))
      | .error fault => .error (faultAlong (p ++ "." ++ q) fault) := by
  generalize hpath : p ++ "." ++ q = path
  have hsegments : pathSegments path = pathSegments p ++ pathSegments q := by
    rw [← hpath, pathSegments_append]
  obtain ⟨segments, hfirst⟩ := exists_pathSegments_eq q
  simp only [resolve, hsegments, descend_append]
  cases descend (.object source) (pathSegments p) with
  | error segment => rfl
  | ok v =>
    cases v with
    | object inner =>
      simp only [Except.bind]
      cases descend (.object inner) (pathSegments q) <;> rfl
    | null | bool | number | text | list =>
      -- There is no way on from anything but an object, whatever the key.
      simp only [Except.bind, hfirst, descend, Value.get?]

/-- **Resolving paths composes.** A path that is followed by a point and another path resolves to
what the second one resolves to in the object that the first one names; if the first one names
something else, the first segment of the second one is to blame, and if it names nothing, the same
segment as for itself. A path resolves to a value exactly if its segments, which are what stands
between its points, lead there key by key; a fault names the whole path and the segment at which
there is no way on. -/
theorem resolve_composes (source : Entries) :
    (∀ p q, resolve source (p ++ "." ++ q) =
      match resolve source p with
      | .ok (.object inner) => (resolve inner q).mapError (faultAlong (p ++ "." ++ q))
      | .ok _ => .error (.tokenPath (p ++ "." ++ q) (firstSegment q))
      | .error fault => .error (faultAlong (p ++ "." ++ q) fault)) ∧
    (∀ path v, resolve source path = .ok v ↔ Leads (.object source) (pathSegments path) v) ∧
    (∀ path fault, resolve source path = .error fault ↔
      ∃ segment, fault = .tokenPath path segment ∧
        Blocked (.object source) (pathSegments path) segment) ∧
    (∀ path segments, pathSegments path = segments ↔
      segments ≠ [] ∧ (∀ segment ∈ segments, '.' ∉ segment.toList) ∧
        String.intercalate "." segments = path) :=
  ⟨resolve_append source, fun _ _ => resolve_eq_ok_iff, fun _ _ => resolve_eq_error_iff,
    fun _ _ => pathSegments_eq_iff⟩

/-- Doubled points separate an empty segment, and it is blamed like any other. -/
example : resolve [("a", .object [("", .object [("b", .text "x")])])] "a..b" = .ok (.text "x") ∧
    resolve [("a", .object [])] "a..b" = .error (.tokenPath "a..b" "") := ⟨rfl, rfl⟩

end Downline.Token
