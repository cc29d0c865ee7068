/-!
# Blank characters

The characters with the Unicode property White_Space, and texts without the blanks around them.
-/

namespace Downline.Text

/-- The blanks as code points, in order. -/
def blanks : List Nat :=
  [0x9, 0xA, 0xB, 0xC, 0xD, 0x20, 0x85, 0xA0, 0x1680, 0x2000, 0x2001, 0x2002, 0x2003, 0x2004,
   0x2005, 0x2006, 0x2007, 0x2008, 0x2009, 0x200A, 0x2028, 0x2029, 0x202F, 0x205F, 0x3000]

def isBlank (c : Char) : Bool := blanks.contains c.toNat

/-- A text without the blanks at its end. -/
def trimEnd : List Char → List Char
  | [] => []
  | c :: cs =>
    match trimEnd cs with
    | [] => if isBlank c then [] else [c]
    | d :: ds => c :: d :: ds

/-- A text without the blanks around it. -/
def trim (cs : List Char) : List Char := trimEnd (cs.dropWhile isBlank)

theorem trimEnd_blanks {cs : List Char} (h : ∀ c ∈ cs, isBlank c = true) : trimEnd cs = [] := by
  induction cs with
  | nil => rfl
  | cons c cs ih =>
    obtain ⟨hc, hcs⟩ := List.forall_mem_cons.mp h
    rw [trimEnd, ih hcs]
    exact if_pos hc

theorem trimEnd_append_cons (cs : List Char) {c : Char} (hc : isBlank c = false)
    {after : List Char} (h : ∀ c ∈ after, isBlank c = true) :
    trimEnd (cs ++ c :: after) = cs ++ [c] := by
  induction cs with
  | nil =>
    rw [List.nil_append, trimEnd, trimEnd_blanks h]
    exact if_neg (by rw [hc]; exact Bool.false_ne_true)
  | cons d cs ih =>
    rw [List.cons_append, trimEnd, ih]
    cases cs <;> rfl

/-- Only the blanks around a text go, if the text begins and ends with other characters. -/
theorem trim_append_append {before after : List Char} (hbefore : ∀ c ∈ before, isBlank c = true)
    (hafter : ∀ c ∈ after, isBlank c = true) {first last : Char} (hfirst : isBlank first = false)
    (hlast : isBlank last = false) (cs : List Char) :
    trim (before ++ (first :: (cs ++ [last]) ++ after)) = first :: (cs ++ [last]) := by
  have hdrop : (before ++ (first :: (cs ++ [last]) ++ after)).dropWhile isBlank =
      (first :: cs) ++ last :: after := by
    rw [List.dropWhile_append_of_pos hbefore, List.cons_append,
      List.dropWhile_cons_of_neg (by rw [hfirst]; exact Bool.false_ne_true)]
    simp
  rw [trim, hdrop, trimEnd_append_cons _ hlast hafter]
  rfl

end Downline.Text
