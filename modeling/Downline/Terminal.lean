/-!
# Coloured text

Text for a terminal may be painted: the codes of a paint are written in front of it and reset behind
it. Painting is switched on or off for a whole run.
-/

namespace Downline

/-- How a text is painted. -/
inductive Paint where
  | plain
  | red
  | green
  | yellow
  | blue
  | boldRed
  | boldCyan
  deriving DecidableEq, Repr

/-- The codes of a paint, none for plain text. -/
def Paint.codes? : Paint → Option String
  | plain => none
  | red => some "31"
  | green => some "32"
  | yellow => some "33"
  | blue => some "34"
  | boldRed => some "1;31"
  | boldCyan => some "1;36"

/-- A text as it is sent to the terminal. -/
def Paint.apply (p : Paint) (colored : Bool) (s : String) : String :=
  match colored, p.codes? with
  | true, some codes => "\x1b[" ++ codes ++ "m" ++ s ++ "\x1b[0m"
  | _, _ => s

end Downline
