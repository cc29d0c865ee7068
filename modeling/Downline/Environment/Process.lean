import Downline.Environment.Basic
import Downline.Text.Pieces

/-!
# What a process is told by its system

The system hands a process its variables as one block of settings, each ended by a null character,
and keeps the accounts in a table with a line for each.
-/

namespace Downline.Environment

/-- The name and the value of a setting; a text without an equals sign is none. -/
def ofSetting? (cs : List Char) : Option (String × String) :=
  match cs.dropWhile (· != '=') with
  | [] => none
  | _ :: value => some (String.ofList (cs.takeWhile (· != '=')), String.ofList value)

/-- The variables of a block of settings. -/
def ofBlock (block : String) : List (String × String) :=
  (Text.pieces '\x00' block.toList).filterMap ofSetting?

/-- The home directory of an account, found by its number in the table of accounts. The fields of a
line have colons between them; the third is the number and the sixth the home. -/
def homeIn? (accounts number : String) : Option String :=
  (Text.pieces '\n' accounts.toList).findSome? fun line =>
    let fields := (Text.pieces ':' line).map String.ofList
    if fields[2]? = some number then fields[5]? else none

/-- True if a run paints its output. `CLICOLOR_FORCE` and `NO_COLOR` decide, in this order;
otherwise a terminal is painted on unless `CLICOLOR` is zero. -/
def paints (e : Environment) (terminal : Bool) : Bool :=
  match e.get? "CLICOLOR_FORCE", e.get? "NO_COLOR" with
  | some "0", some _ => false
  | some "0", none => terminal && e.get? "CLICOLOR" != some "0"
  | some _, _ => true
  | none, some _ => false
  | none, none => terminal && e.get? "CLICOLOR" != some "0"

end Downline.Environment
