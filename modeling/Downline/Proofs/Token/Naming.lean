import Downline.Token.Name

/-!
# What a sanitized name keeps

`sanitize` keeps the small ASCII letters and digits of a name in lower case and forgets which other
characters stand between them. Only one character has a lower-case form that hangs on its
neighbours, the sigma, and both of its forms are forgotten. So a name may be sanitized character by
character (`sanitize_eq`), and a point may stand for a dash (`sanitize_point`).
-/

namespace Downline.Token

open Text

/-- A character as far as a sanitized name tells it from others. -/
def shade (c : Char) : Char := if isPlain c then c else '-'

theorem isPlain_shade (c : Char) : isPlain (shade c) = isPlain c := by
  unfold shade
  split
  next => rfl
  next h =>
    rw [Bool.eq_false_iff.mpr h]
    rfl

/-- Runs of separators are told by shades alone. -/
theorem dashed_map_shade (inRun : Bool) (cs : List Char) :
    dashed inRun (cs.map shade) = dashed inRun cs := by
  induction cs generalizing inRun with
  | nil => rfl
  | cons c cs ih =>
    rw [List.map_cons, dashed, dashed, isPlain_shade, ih, ih]
    by_cases hc : isPlain c
    · simp [hc, shade]
    · simp [hc]

/-- The shades of a character in lower case, wherever it stands. -/
def shades (c : Char) : List Char :=
  if c = capitalSigma then ['-'] else (lowerChar c).map shade

theorem shade_lowerSigma (before after : List Char) : shade (lowerSigma before after) = '-' := by
  unfold lowerSigma
  split <;> decide

theorem map_shade_lowerAfter (before cs : List Char) :
    (lowerAfter before cs).map shade = cs.flatMap shades := by
  induction cs generalizing before with
  | nil => rfl
  | cons c cs ih =>
    rw [lowerAfter, List.map_append, ih, List.flatMap_cons, shades]
    split
    · rw [List.map_singleton, shade_lowerSigma]
    · rfl

/-- **A name is sanitized character by character.** -/
theorem sanitize_eq (name : String) :
    sanitize name = String.ofList (trimDashes (dashed false (name.toList.flatMap shades))) := by
  rw [sanitize, lower, ← map_shade_lowerAfter [], dashed_map_shade]

/-- A point in a name separates as a dash does. -/
theorem sanitize_point (a b : String) : sanitize (a ++ "." ++ b) = sanitize (a ++ "-" ++ b) := by
  have hpoint : ".".toList.flatMap shades = "-".toList.flatMap shades := by decide
  simp only [sanitize_eq, String.toList_append, List.flatMap_append, hpoint]

theorem mem_dashed {inRun : Bool} {cs : List Char} {c : Char} (h : c ∈ dashed inRun cs) :
    isPlain c = true ∨ c = '-' := by
  induction cs generalizing inRun with
  | nil => cases h
  | cons d cs ih =>
    rw [dashed] at h
    split at h
    next hd =>
      rcases List.mem_cons.mp h with rfl | h
      · exact .inl hd
      · exact ih h
    next =>
      split at h
      next => exact ih h
      next =>
        rcases List.mem_cons.mp h with rfl | h
        · exact .inr rfl
        · exact ih h

theorem trimDashes_subset (cs : List Char) : trimDashes cs ⊆ cs := by
  intro c hc
  have hfront := List.mem_reverse.mp ((List.dropWhile_suffix _).subset (List.mem_reverse.mp hc))
  exact (List.dropWhile_suffix _).subset hfront

/-- A sanitized name is made of small letters, digits and dashes. -/
theorem mem_sanitize {name : String} {c : Char} (h : c ∈ (sanitize name).toList) :
    isPlain c = true ∨ c = '-' := by
  rw [sanitize, String.toList_ofList] at h
  exact mem_dashed (trimDashes_subset _ h)

end Downline.Token
