/-!
# Values of TOML documents

A value is a text, a number, a moment in time, a truth value, a list or a table. Numbers with a
fraction and moments keep their spelling, which has been checked.
-/

namespace Downline.Toml

/-- The value of a key. -/
inductive Value where
  | text (s : String)
  | integer (n : Int)
  | real (literal : String)
  | moment (literal : String)
  | bool (b : Bool)
  | list (items : List Value)
  | table (entries : List (String × Value))
  deriving Repr

/-- A dotted key: the tables on the way, and the name of an entry in the last of them. -/
structure Key where
  path : List String
  name : String
  deriving DecidableEq, Repr

namespace Value

/-- True of a list without items and of a table without entries. -/
def isVoid : Value → Bool
  | list [] => true
  | table [] => true
  | _ => false

/-- The text that a value is. -/
def text? : Value → Option String
  | text s => some s
  | _ => none

/-- The value of a key among entries. -/
def find? (entries : List (String × Value)) (key : String) : Option Value := entries.lookup key

end Value

end Downline.Toml
