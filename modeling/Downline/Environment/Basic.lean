/-!
# The environment of a run

A program is started with variables and on behalf of an account. A variable is a setting
`NAME=VALUE`, and a name is looked up among the settings as they stand: the first one that begins
with the name and an equals sign gives the value. The name may hold an equals sign of its own, so
with `A=B=C` in the environment both `A` and `A=B` have a value.
-/

namespace Downline

/-- The environment of a run. -/
structure Environment where
  /-- The variables with their values, in the order of the environment. -/
  bindings : List (String × String)
  /-- The home directory of the account. -/
  accountHome : Option String
  deriving DecidableEq, Repr

namespace Environment

/-- What a text goes on with behind a beginning, if it has that beginning. -/
def behind? : List Char → List Char → Option (List Char)
  | [], cs => some cs
  | _ :: _, [] => none
  | b :: bs, c :: cs => if b = c then behind? bs cs else none

/-- The text of a setting. -/
def setting (name value : String) : List Char := name.toList ++ '=' :: value.toList

/-- The value of a variable. The empty name and a name with a null character name nothing. -/
def value? (e : Environment) (name : List Char) : Option (List Char) :=
  if name = [] ∨ '\x00' ∈ name then none
  else e.bindings.findSome? fun (n, v) => behind? (name ++ ['=']) (setting n v)

/-- The value of a variable, as a text. -/
def get? (e : Environment) (name : String) : Option String :=
  (e.value? name.toList).map String.ofList

/-- The home directory: the variable `HOME` unless it is empty, otherwise the home of the account.
-/
def home? (e : Environment) : Option String :=
  match e.get? "HOME" with
  | none => e.accountHome
  | some home => if home = "" then e.accountHome else some home

theorem behind?_append (bs cs : List Char) : behind? bs (bs ++ cs) = some cs := by
  induction bs with
  | nil => rfl
  | cons b bs ih => simp [behind?, ih]

theorem behind?_eq_some_iff {bs cs rest : List Char} :
    behind? bs cs = some rest ↔ cs = bs ++ rest := by
  constructor
  · intro h
    induction bs generalizing cs with
    | nil => simpa [behind?] using h
    | cons b bs ih =>
      cases cs with
      | nil => simp [behind?] at h
      | cons c cs =>
        by_cases hc : b = c
        · simp [behind?, hc] at h
          simp [hc, ih h]
        · simp [behind?, hc] at h
  · rintro rfl
    exact behind?_append bs rest

end Environment

end Downline
