/-!
# Cutting a text at a character

`pieces sep` cuts a text at every `sep`. There is always one piece more than there are separators,
so a separator at either end or beside another one makes an empty piece. Putting the pieces together
with the separator between them gives the text again (`join_pieces`). Two texts with a separator
between them have the pieces of the one and then those of the other (`pieces_append_cons`), and
pieces that have been put together are found again (`pieces_join`).
-/

namespace Downline.Text

/-- The pieces of a text between its separators. -/
def pieces (sep : Char) : List Char → List (List Char)
  | [] => [[]]
  | c :: cs =>
    if c = sep then [] :: pieces sep cs
    else
      match pieces sep cs with
      | [] => [[c]]
      | p :: ps => (c :: p) :: ps

/-- Pieces with a separator between each two of them. -/
def join (sep : List Char) : List (List Char) → List Char
  | [] => []
  | [p] => p
  | p :: q :: ps => p ++ sep ++ join sep (q :: ps)

theorem pieces_ne_nil (sep : Char) (cs : List Char) : pieces sep cs ≠ [] := by
  cases cs with
  | nil => simp [pieces]
  | cons c cs =>
    simp only [pieces]
    split
    · simp
    · split <;> simp

theorem join_pieces (sep : Char) (cs : List Char) : join [sep] (pieces sep cs) = cs := by
  induction cs with
  | nil => rfl
  | cons c cs ih =>
    simp only [pieces]
    split
    · next h =>
      cases hp : pieces sep cs with
      | nil => exact absurd hp (pieces_ne_nil sep cs)
      | cons p ps => rw [hp] at ih; simp [join, ih, h]
    · cases hp : pieces sep cs with
      | nil => exact absurd hp (pieces_ne_nil sep cs)
      | cons p ps =>
        rw [hp] at ih
        cases ps with
        | nil => simpa [join] using ih
        | cons q qs => simpa [join] using ih

/-- No piece holds a separator. -/
theorem notMem_of_mem_pieces {sep : Char} {cs p : List Char} (h : p ∈ pieces sep cs) : sep ∉ p := by
  induction cs generalizing p with
  | nil =>
    cases List.mem_singleton.mp h
    exact List.not_mem_nil
  | cons c cs ih =>
    rw [pieces] at h
    split at h
    next =>
      rcases List.mem_cons.mp h with rfl | h
      · exact List.not_mem_nil
      · exact ih h
    next hc =>
      cases hp : pieces sep cs with
      | nil => exact absurd hp (pieces_ne_nil sep cs)
      | cons q qs =>
        rw [hp] at h ih
        rcases List.mem_cons.mp h with rfl | h
        · exact fun hmem => (List.mem_cons.mp hmem).elim (fun heq => hc heq.symm) (ih (.head _))
        · exact ih (.tail _ h)

/-- The first piece ends in front of the first separator. -/
theorem exists_pieces_eq (sep : Char) (cs : List Char) :
    ∃ ps, pieces sep cs = cs.takeWhile (· != sep) :: ps := by
  induction cs with
  | nil => exact ⟨[], rfl⟩
  | cons c cs ih =>
    obtain ⟨ps, hps⟩ := ih
    rw [pieces, hps]
    by_cases hc : c = sep
    · exact ⟨_, by rw [if_pos hc, List.takeWhile_cons_of_neg (by simp [hc])]⟩
    · have hkept : (c != sep) = true := bne_iff_ne.mpr hc
      exact ⟨ps, by rw [if_neg hc, List.takeWhile_cons, if_pos hkept]⟩

/-- A text without separators is one piece. -/
theorem pieces_of_notMem {sep : Char} {cs : List Char} (h : sep ∉ cs) : pieces sep cs = [cs] := by
  induction cs with
  | nil => rfl
  | cons c cs ih =>
    have hc : c ≠ sep := fun hc => h (hc ▸ .head _)
    have hcs : sep ∉ cs := fun hcs => h (.tail _ hcs)
    rw [pieces, if_neg hc, ih hcs]

theorem pieces_append_cons (sep : Char) (cs ds : List Char) :
    pieces sep (cs ++ sep :: ds) = pieces sep cs ++ pieces sep ds := by
  induction cs with
  | nil =>
    rw [List.nil_append, pieces.eq_2, if_pos rfl]
    rfl
  | cons c cs ih =>
    rw [List.cons_append, pieces, pieces, ih]
    split
    · rfl
    · cases hp : pieces sep cs with
      | nil => exact absurd hp (pieces_ne_nil sep cs)
      | cons p ps => rfl

/-- Pieces without separators are found again where they have been put together. -/
theorem pieces_join {sep : Char} {ps : List (List Char)} (hne : ps ≠ [])
    (h : ∀ p ∈ ps, sep ∉ p) : pieces sep (join [sep] ps) = ps := by
  induction ps with
  | nil => exact absurd rfl hne
  | cons p ps ih =>
    obtain ⟨hp, hps⟩ := List.forall_mem_cons.mp h
    cases ps with
    | nil => exact pieces_of_notMem hp
    | cons q qs =>
      rw [join, List.append_assoc, List.singleton_append, pieces_append_cons, pieces_of_notMem hp,
        ih (List.cons_ne_nil q qs) hps, List.singleton_append]

/-- A text of which no piece is empty has no separator at an end and no two beside each other. -/
theorem separated_of_pieces {sep : Char} {cs : List Char} (h : ∀ p ∈ pieces sep cs, p ≠ []) :
    cs.head? ≠ some sep ∧ cs.getLast? ≠ some sep ∧ ¬ [sep, sep] <:+: cs := by
  have hcut {front back : List Char} (hcs : cs = front ++ sep :: back) :
      (∀ p ∈ pieces sep front, p ≠ []) ∧ ∀ p ∈ pieces sep back, p ≠ [] := by
    rw [hcs, pieces_append_cons] at h
    exact List.forall_mem_append.mp h
  have hempty : ¬ ∀ p ∈ pieces sep [], p ≠ [] := fun h => h [] (.head _) rfl
  refine ⟨fun hhead => ?_, fun hlast => ?_, ?_⟩
  · obtain ⟨back, hback⟩ := List.head?_eq_some_iff.mp hhead
    have hfront : cs = [] ++ sep :: back := hback
    exact hempty (hcut hfront).1
  · obtain ⟨front, hfront⟩ := List.getLast?_eq_some_iff.mp hlast
    exact hempty (hcut hfront).2
  · rintro ⟨front, back, hinfix⟩
    rw [List.append_assoc] at hinfix
    have hrest : ∀ p ∈ pieces sep (sep :: back), p ≠ [] := (hcut hinfix.symm).2
    rw [pieces, if_pos rfl] at hrest
    exact hrest [] (.head _) rfl

theorem ofList_join (sep : Char) (ps : List (List Char)) :
    String.ofList (join [sep] ps) =
      String.intercalate (String.ofList [sep]) (ps.map String.ofList) := by
  induction ps with
  | nil => rfl
  | cons p ps ih =>
    cases ps with
    | nil => exact String.intercalate_singleton.symm
    | cons q qs =>
      rw [join, String.ofList_append, String.ofList_append, ih]
      exact String.intercalate_cons_cons.symm

end Downline.Text
