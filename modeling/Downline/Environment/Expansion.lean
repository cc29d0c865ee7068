import Downline.Environment.Basic
import Downline.Text.Alphanumeric

/-!
# Variables and the home directory in paths

In a path `$NAME` and `${NAME}` stand for the value of a variable, `${NAME:-text}` for the text if
the variable is not set, `$$` for a dollar sign and a tilde in front for the home directory. A path
is first cut into its parts. If one part has no value, the whole path stays as it was written.

A tilde that only came in with a variable is no reference to the home directory.
-/

namespace Downline.Environment

/-- A part of a path. -/
inductive Part where
  | char (c : Char)
  /-- The value of a variable, or else a text if one is given. -/
  | variable (name : List Char) (otherwise : Option (List Char))
  deriving DecidableEq, Repr

/-- The characters of a name that stands without braces. -/
def isNameChar (c : Char) : Bool := Text.isAlphanumeric c || c == '_'

/-- Cuts a text in front of its first `:-`; the second part is what follows the mark. -/
def splitAtMark : List Char → List Char × Option (List Char)
  | [] => ([], none)
  | ':' :: '-' :: rest => ([], some rest)
  | c :: rest =>
    let (front, back) := splitAtMark rest
    (c :: front, back)

/-- The part that the text between two braces stands for. A mark right at its start belongs to the
name. -/
def bracedPart (inside : List Char) : Part :=
  match splitAtMark inside with
  | (_ :: _, some _) => .variable (splitAtMark inside).1 (splitAtMark inside).2
  | _ => .variable inside none

/-- The parts of a path. A brace that is never closed stands for itself, as does a dollar sign in
front of anything that begins no name. -/
def parts (cs : List Char) : List Part :=
  match cs with
  | [] => []
  | '$' :: '$' :: rest => .char '$' :: parts rest
  | '$' :: '\x7b' :: rest =>
    match _ : rest.dropWhile (· != '\x7d') with
    | [] => .char '$' :: .char '\x7b' :: parts rest
    | _ :: after => bracedPart (rest.takeWhile (· != '\x7d')) :: parts after
  | '$' :: c :: rest =>
    if isNameChar c then
      .variable (c :: rest.takeWhile isNameChar) none :: parts (rest.dropWhile isNameChar)
    else .char '$' :: parts (c :: rest)
  | c :: rest => .char c :: parts rest
termination_by cs.length
decreasing_by
  · simp only [List.length_cons]
    omega
  · simp only [List.length_cons]
    omega
  · rename_i h
    have := congrArg List.length h
    have shorter := (List.dropWhile_suffix (· != '\x7d') (l := rest)).length_le
    simp only [List.length_cons] at *
    omega
  · have := (List.dropWhile_suffix isNameChar (l := rest)).length_le
    simp only [List.length_cons]
    omega
  · simp
  · simp

/-- The value of a part. -/
def partValue? (e : Environment) : Part → Option (List Char)
  | .char c => some [c]
  | .variable name otherwise =>
    match e.value? name with
    | some value => some value
    | none => otherwise

/-- The value of a list of parts; every part must have one. -/
def partsValue? (e : Environment) : List Part → Option (List Char)
  | [] => some []
  | p :: ps =>
    match e.partValue? p with
    | none => none
    | some value => (e.partsValue? ps).map (value ++ ·)

/-- A path with the home directory in place of a tilde that is its first segment. -/
def expandTilde (e : Environment) (cs : List Char) : List Char :=
  match cs, e.home? with
  | ['~'], some home => home.toList
  | '~' :: '/' :: rest, some home => home.toList ++ '/' :: rest
  | _, _ => cs

/-- A path with its references replaced. -/
def expandChars (e : Environment) (cs : List Char) : List Char :=
  match e.partsValue? (parts cs) with
  | none => cs
  | some value =>
    if cs.head? ≠ some '~' ∧ value.head? = some '~' then value else e.expandTilde value

def expand (e : Environment) (path : String) : String :=
  String.ofList (e.expandChars path.toList)

end Downline.Environment
