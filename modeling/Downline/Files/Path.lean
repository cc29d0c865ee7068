import Downline.Text.Pieces

/-!
# Paths

A path is a text whose segments are separated by slashes; it is absolute if it starts with one.
Paths are kept as they were written: joining never removes a segment, and `.` and `..` mean
something only to the files they lead to.
-/

namespace Downline.Files

/-- True of a path that starts at the root of the file system. -/
def isAbsolute (path : String) : Bool := path.toList.head? == some '/'

/-- A path seen from a base. An absolute path stands for itself; otherwise a slash is put between
the two unless the base is empty or ends with one. -/
def join (base path : String) : String :=
  if isAbsolute path then path
  else if base.isEmpty || base.toList.getLast? == some '/' then base ++ path
  else base ++ "/" ++ path

theorem join_of_absolute {path : String} (h : isAbsolute path = true) (directory : String) :
    join directory path = path := by
  rw [join, if_pos h]

theorem join_empty (path : String) : join "" path = path := by
  unfold join
  split
  · rfl
  · exact String.empty_append

/-- A directory as it stands in front of a relative path. -/
def front (directory : String) : List Char :=
  if directory.toList.getLast? = some '/' then directory.toList else directory.toList ++ ['/']

theorem toList_join_of_relative {directory path : String} (hdirectory : directory ≠ "")
    (h : ¬ isAbsolute path = true) :
    (join directory path).toList = front directory ++ path.toList := by
  have hempty : directory.isEmpty = false := by simpa using hdirectory
  rw [join, if_neg h, hempty, Bool.false_or, front]
  by_cases hslash : directory.toList.getLast? = some '/'
  · simp [hslash]
  · simp [hslash]

theorem getLast?_front (directory : String) : (front directory).getLast? = some '/' := by
  unfold front
  split
  next h => exact h
  next => simp

theorem not_mem_front {directory : String} {c : Char} (hc : c ≠ '/') (h : c ∉ directory.toList) :
    c ∉ front directory := by
  unfold front
  split
  · exact h
  · simp [h, hc]

/-- The texts between the slashes of a path. -/
def segments (path : String) : List String :=
  (Text.pieces '/' path.toList).map String.ofList

/-- A path without its last segment and the slashes in front of it; a slash that starts the path
stays. -/
def parent (path : String) : String :=
  let isSlash := fun c => c == '/'
  let front := (path.toList.reverse.dropWhile isSlash).dropWhile (fun c => c != '/')
  match front, front.dropWhile isSlash with
  | [], _ => ""
  | _ :: _, [] => "/"
  | _ :: _, kept => String.ofList kept.reverse

end Downline.Files
