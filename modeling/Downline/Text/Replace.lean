/-!
# Replacing a text within a text

`replaceAll` replaces every occurrence of a pattern, from the left, without looking at what has been
put in. An empty pattern is never found.
-/

namespace Downline.Text

/-- A text with every occurrence of a pattern replaced. -/
def replaceAll (pattern by' : List Char) (cs : List Char) : List Char :=
  match cs with
  | [] => []
  | c :: rest =>
    if pattern ≠ [] ∧ pattern.isPrefixOf (c :: rest) then
      by' ++ replaceAll pattern by' ((c :: rest).drop pattern.length)
    else c :: replaceAll pattern by' rest
termination_by cs.length
decreasing_by
  · have := List.length_pos_iff.2 (by assumption : pattern ≠ [] ∧ _).1
    simp only [List.length_drop, List.length_cons]
    omega
  · simp

end Downline.Text
