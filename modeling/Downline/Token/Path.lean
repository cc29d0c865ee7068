import Downline.Token.Bundle
import Downline.Text.Pieces

/-!
# Dotted paths

A path such as `palette.primary.value` names a value inside a bundle: each segment is a key of the
object reached so far. Every point separates two segments, so a path may hold empty ones; they name
the empty key. A path that leads nowhere is reported with the first segment that is not there.
-/

namespace Downline.Token

open Json

/-- The segments of a dotted path. -/
def pathSegments (path : String) : List String :=
  (Text.pieces '.' path.toList).map String.ofList

/-- Follows segments from a value on. The fault is the segment at which there is no way on. -/
def descend (v : Value) : List String → Except String Value
  | [] => .ok v
  | segment :: segments =>
    match v.get? segment with
    | none => .error segment
    | some w => descend w segments

/-- The value that a dotted path names in an object. -/
def resolve (source : Entries) (path : String) : Except Fault Value :=
  match descend (.object source) (pathSegments path) with
  | .error segment => .error (.tokenPath path segment)
  | .ok v => .ok v

namespace Bundle

/-- The value that a dotted path names in the payload. -/
def get (b : Bundle) (path : String) : Except Fault Value := resolve b.payload path

/-- The value that a dotted path names, or another one if it names none. -/
def getOr (b : Bundle) (path : String) (fallback : Value) : Value :=
  match b.get path with
  | .ok v => v
  | .error _ => fallback

end Bundle

end Downline.Token
