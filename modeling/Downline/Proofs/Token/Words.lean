import Downline.Proofs.Token.Naming
import Mathlib.Data.List.Basic

/-!
# The words of a name

The words of a text are its longest runs of small ASCII letters and digits, in order (`Runs`); what
stands between them only separates. A sanitized name is the words of the name in lower case, joined
by single dashes (`sanitize_eq_join`). All else follows from what the words are: a sanitized name
keeps its words, so it is left as it is when it is sanitized again, and a separator between two
names puts the words of the one in front of the words of the other (`sanitize_words`).

Lower case by itself does not go piece by piece: the form of a sigma depends on the letters around
it, and it looks past a point for them. Both forms separate, so the words cannot tell.
-/

namespace Downline.Token

open Text

/-! ## Words of a text -/

/-- Plain characters, one or more. -/
structure IsWord (w : List Char) : Prop where
  filled : w ≠ []
  plain : ∀ c ∈ w, isPlain c = true

/-- The longest runs of plain characters in a text, in order: a run ends at the end of the text or
in front of a separator, and one begins at the start of the text or behind a separator. -/
inductive Runs : List Char → List (List Char) → Prop where
  | nil : Runs [] []
  | separator {c : Char} {cs : List Char} {ws : List (List Char)} (hc : isPlain c = false)
      (rest : Runs cs ws) : Runs (c :: cs) ws
  | last {w : List Char} (hw : IsWord w) : Runs w [w]
  | run {w cs : List Char} {c : Char} {ws : List (List Char)} (hw : IsWord w)
      (hc : isPlain c = false) (rest : Runs cs ws) : Runs (w ++ c :: cs) (w :: ws)

theorem words_separator {c : Char} (hc : isPlain c = false) (cs : List Char) :
    words (c :: cs) = words cs := by
  rw [words.eq_def]
  simp only [hc, Bool.false_eq_true, if_false]

/-- A run of plain characters in front of a separator, or at the end, is one word. -/
theorem words_append {w rest : List Char} (hw : IsWord w)
    (hrest : ∀ c ∈ rest.head?, isPlain c = false) : words (w ++ rest) = w :: words rest := by
  obtain ⟨hfilled, hplain⟩ := hw
  induction w with
  | nil => exact absurd rfl hfilled
  | cons c w ih =>
    obtain ⟨hc, hw⟩ := List.forall_mem_cons.mp hplain
    rw [List.cons_append, words.eq_def]
    simp only [hc, if_true]
    cases w with
    | nil =>
      cases rest with
      | nil => rfl
      | cons d rest =>
        have hd : isPlain d = false := hrest d rfl
        simp only [List.nil_append, hd, Bool.false_eq_true, if_false]
    | cons d w =>
      have hd : isPlain d = true := (List.forall_mem_cons.mp hw).1
      have hwords := ih (List.cons_ne_nil d w) hw
      rw [List.cons_append] at hwords ⊢
      simp only [hd, if_true, hwords]

theorem IsWord.words_eq {w : List Char} (hw : IsWord w) : words w = [w] := by
  have hwords : words (w ++ []) = w :: words [] := words_append hw fun _ h => nomatch h
  rwa [List.append_nil] at hwords

theorem words_of_runs {cs : List Char} {ws : List (List Char)} (h : Runs cs ws) :
    words cs = ws := by
  induction h with
  | nil => rfl
  | separator hc _ ih => rw [words_separator hc, ih]
  | last hw => exact hw.words_eq
  | run hw hc _ ih =>
    rw [words_append hw (by simpa using hc), words_separator hc, ih]

theorem runs_words (cs : List Char) : Runs cs (words cs) := by
  induction hlength : cs.length using Nat.strongRecOn generalizing cs with | ind n ih => ?_
  cases cs with
  | nil => exact .nil
  | cons c cs =>
    cases hc : isPlain c with
    | false =>
      rw [words_separator hc]
      exact .separator hc (ih cs.length (by rw [← hlength]; simp) cs rfl)
    | true =>
      have hw : IsWord ((c :: cs).takeWhile isPlain) :=
        ⟨by simp [hc], List.all_eq_true.mp List.all_takeWhile⟩
      have hsplit := List.takeWhile_append_dropWhile (p := isPlain) (l := c :: cs)
      -- What is behind the first run is nothing, or it begins with a separator.
      cases hrest : (c :: cs).dropWhile isPlain with
      | nil =>
        rw [hrest, List.append_nil] at hsplit
        rw [hsplit] at hw
        rw [hw.words_eq]
        exact .last hw
      | cons d rest =>
        have hd : isPlain d = false := by
          have hhead := List.head?_dropWhile_not isPlain (c :: cs)
          rw [hrest] at hhead
          simpa using hhead
        rw [hrest] at hsplit
        have hshorter : rest.length < n := by
          rw [← hlength, ← hsplit, List.length_append, List.length_cons]
          omega
        rw [← hsplit, words_append hw (by simpa using hd), words_separator hd]
        exact .run hw hd (ih rest.length hshorter rest rfl)

/-- **The words of a text are its longest runs of plain characters.** -/
theorem runs_iff {cs : List Char} {ws : List (List Char)} : Runs cs ws ↔ words cs = ws :=
  ⟨words_of_runs, fun h => h ▸ runs_words cs⟩

theorem Runs.isWord {cs : List Char} {ws : List (List Char)} (h : Runs cs ws) :
    ∀ w ∈ ws, IsWord w := by
  induction h with
  | nil => exact fun _ h => nomatch h
  | separator _ _ ih => exact ih
  | last hw => exact List.forall_mem_singleton.mpr hw
  | run hw _ _ ih => exact List.forall_mem_cons.mpr ⟨hw, ih⟩

/-- A separator between two texts parts their words. -/
theorem Runs.append {as bs : List Char} {ws vs : List (List Char)} {c : Char} (h : Runs as ws)
    (hc : isPlain c = false) (h' : Runs bs vs) : Runs (as ++ c :: bs) (ws ++ vs) := by
  induction h with
  | nil => exact .separator hc h'
  | separator hd _ ih => exact .separator hd ih
  | last hw => exact .run hw hc h'
  | run hw hd _ ih =>
    rw [List.append_assoc]
    exact .run hw hd ih

/-- Words are told by shades alone. -/
theorem Runs.map_shade {cs : List Char} {ws : List (List Char)} (h : Runs cs ws) :
    Runs (cs.map shade) ws := by
  have hword {w : List Char} (hw : IsWord w) : w.map shade = w :=
    (List.map_congr_left fun c hc => if_pos (hw.plain c hc)).trans (List.map_id w)
  have hseparator {c : Char} (hc : isPlain c = false) : isPlain (shade c) = false := by
    rw [isPlain_shade, hc]
  induction h with
  | nil => exact .nil
  | separator hc _ ih => exact .separator (hseparator hc) ih
  | last hw =>
    rw [hword hw]
    exact .last hw
  | run hw hc _ ih =>
    rw [List.map_append, hword hw]
    exact .run hw (hseparator hc) ih

/-! ## Words joined by dashes -/

theorem dashed_append {w : List Char} (hw : IsWord w) (inRun : Bool) (rest : List Char) :
    dashed inRun (w ++ rest) = w ++ dashed false rest := by
  obtain ⟨hfilled, hplain⟩ := hw
  induction w generalizing inRun with
  | nil => exact absurd rfl hfilled
  | cons c w ih =>
    obtain ⟨hc, hw⟩ := List.forall_mem_cons.mp hplain
    rw [List.cons_append, dashed, if_pos hc]
    cases w with
    | nil => rfl
    | cons d w => rw [ih false (List.cons_ne_nil d w) hw]; rfl

theorem IsWord.join_ne_nil {w : List Char} (hw : IsWord w) (ws : List (List Char)) :
    join ['-'] (w :: ws) ≠ [] := by
  cases ws with
  | nil => exact hw.filled
  | cons v ws =>
    rw [join, List.append_assoc]
    exact List.append_ne_nil_of_left_ne_nil hw.filled _

/-- Behind a separator, what is left are the words, and perhaps a dash behind the last one. -/
theorem Runs.exists_dashed {cs : List Char} {ws : List (List Char)} (h : Runs cs ws) :
    ∃ back, (back = [] ∨ join ['-'] ws ≠ [] ∧ back = ['-']) ∧
      dashed true cs = join ['-'] ws ++ back := by
  induction h with
  | nil => exact ⟨[], .inl rfl, rfl⟩
  | separator hc _ ih =>
    rw [dashed, hc]
    exact ih
  | @last w hw =>
    have hdashed := dashed_append hw true []
    rw [List.append_nil] at hdashed
    exact ⟨[], .inl rfl, hdashed⟩
  | @run w cs c ws hw hc _ ih =>
    obtain ⟨back, hback, hdashed⟩ := ih
    have hseparator : dashed false (c :: cs) = '-' :: dashed true cs := by
      rw [dashed, hc]
      rfl
    rw [dashed_append hw, hseparator, hdashed]
    cases ws with
    | nil =>
      -- Nothing follows but separators, and all of them together leave one dash.
      refine ⟨['-'], .inr ⟨hw.join_ne_nil [], rfl⟩, ?_⟩
      rw [hback.resolve_right fun h => h.1 rfl]
      rfl
    | cons v ws =>
      refine ⟨back, hback.imp_right fun h => ⟨hw.join_ne_nil _, h.2⟩, ?_⟩
      rw [join, List.append_assoc, List.append_assoc]
      rfl

theorem exists_dashed_false (cs : List Char) :
    ∃ front, (∀ c ∈ front, c = '-') ∧ dashed false cs = front ++ dashed true cs := by
  cases cs with
  | nil => exact ⟨[], fun _ h => (nomatch h), rfl⟩
  | cons c cs =>
    cases hc : isPlain c with
    | true => exact ⟨[], fun _ h => (nomatch h), by rw [dashed, dashed, if_pos hc, if_pos hc]; rfl⟩
    | false =>
      refine ⟨['-'], List.forall_mem_singleton.mpr rfl, ?_⟩
      rw [dashed, dashed, hc]
      rfl

theorem dropWhile_dashes {front rest : List Char} (hfront : ∀ c ∈ front, c = '-')
    (hrest : rest.head? ≠ some '-') : (front ++ rest).dropWhile (· == '-') = rest := by
  induction front with
  | nil =>
    cases rest with
    | nil => rfl
    | cons c rest =>
      have hc : (c == '-') = false := beq_eq_false_iff_ne.mpr fun h => hrest (congrArg some h)
      rw [List.nil_append, List.dropWhile_cons, hc]
      rfl
  | cons c front ih =>
    obtain ⟨rfl, hfront'⟩ := List.forall_mem_cons.mp hfront
    exact ih hfront'

/-- Dashes at the ends of a text go, and nothing else does. -/
theorem trimDashes_append {front text back : List Char} (hfront : ∀ c ∈ front, c = '-')
    (hback : back = [] ∨ text ≠ [] ∧ back = ['-']) (hhead : text.head? ≠ some '-')
    (hlast : text.getLast? ≠ some '-') : trimDashes (front ++ (text ++ back)) = text := by
  have hhead' : (text ++ back).head? ≠ some '-' := by
    rcases hback with rfl | ⟨hfilled, rfl⟩
    · rwa [List.append_nil]
    · obtain ⟨c, cs, rfl⟩ := List.exists_cons_of_ne_nil hfilled
      exact hhead
  have hback' : ∀ c ∈ back.reverse, c = '-' := by
    rcases hback with rfl | ⟨-, rfl⟩
    · exact fun _ h => nomatch h
    · exact List.forall_mem_singleton.mpr rfl
  have hlast' : text.reverse.head? ≠ some '-' := by rwa [List.head?_reverse]
  rw [trimDashes, dropWhile_dashes hfront hhead', List.reverse_append,
    dropWhile_dashes hback' hlast', List.reverse_reverse]

theorem IsWord.dash_notMem {w : List Char} (hw : IsWord w) : '-' ∉ w := fun h => by
  have hdash := hw.plain '-' h
  cases hdash

/-- Words that are joined by dashes have no dash at an end, and no two beside each other. -/
theorem separated_join {ws : List (List Char)} (h : ∀ w ∈ ws, IsWord w) :
    (join ['-'] ws).head? ≠ some '-' ∧ (join ['-'] ws).getLast? ≠ some '-' ∧
      ¬ ['-', '-'] <:+: join ['-'] ws := by
  by_cases hne : ws = []
  · subst hne
    decide
  · refine separated_of_pieces ?_
    rw [pieces_join hne fun w hw => (h w hw).dash_notMem]
    exact fun w hw => (h w hw).filled

theorem Runs.trimDashes_dashed {cs : List Char} {ws : List (List Char)} (h : Runs cs ws) :
    trimDashes (dashed false cs) = join ['-'] ws := by
  obtain ⟨front, hfront, hdashed⟩ := exists_dashed_false cs
  obtain ⟨back, hback, hjoined⟩ := h.exists_dashed
  obtain ⟨hhead, hlast, -⟩ := separated_join h.isWord
  rw [hdashed, hjoined, trimDashes_append hfront hback hhead hlast]

/-! ## Names -/

/-- The words of a name in lower case. -/
def nameWords (name : String) : List (List Char) := words (lower name.toList)

theorem isWord_of_mem_nameWords {name : String} : ∀ w ∈ nameWords name, IsWord w :=
  (runs_words _).isWord

/-- **A sanitized name is the words of the name, joined by dashes.** -/
theorem sanitize_eq_join (name : String) :
    sanitize name = String.ofList (join ['-'] (nameWords name)) := by
  rw [sanitize, (runs_words _).trimDashes_dashed, nameWords]

theorem sanitize_eq_intercalate (name : String) :
    sanitize name = String.intercalate "-" ((nameWords name).map String.ofList) :=
  (sanitize_eq_join name).trans (ofList_join '-' _)

/-- The words of a name are found character by character. -/
theorem nameWords_eq_iff {name : String} {ws : List (List Char)} :
    nameWords name = ws ↔ Runs (name.toList.flatMap shades) ws := by
  rw [← map_shade_lowerAfter [], ← lower]
  constructor
  · rintro rfl
    exact (runs_words _).map_shade
  · intro h
    have hwords : words ((lower name.toList).map shade) = nameWords name :=
      words_of_runs (runs_words _).map_shade
    rw [← hwords, words_of_runs h]

/-- A separator between two names puts their words one after the other. -/
theorem nameWords_append (a b : String) :
    nameWords (a ++ "-" ++ b) = nameWords a ++ nameWords b := by
  have hdash : "-".toList.flatMap shades = ['-'] := by decide
  rw [nameWords_eq_iff, String.toList_append, String.toList_append, List.flatMap_append,
    List.flatMap_append, hdash, List.append_assoc]
  exact (nameWords_eq_iff.mp rfl).append rfl (nameWords_eq_iff.mp rfl)

/-- Words that have been joined are found again. -/
theorem runs_join {ws : List (List Char)} (h : ∀ w ∈ ws, IsWord w) : Runs (join ['-'] ws) ws := by
  induction ws with
  | nil => exact .nil
  | cons w ws ih =>
    obtain ⟨hw, hws⟩ := List.forall_mem_cons.mp h
    cases ws with
    | nil => exact .last hw
    | cons v ws =>
      rw [join, List.append_assoc]
      exact .run hw rfl (ih hws)

/-- What is left of a name is its own lower case. -/
theorem shades_of_isPlain {c : Char} (h : isPlain c = true) : shades c = [c] := by
  have hbelow : c.toNat < 123 := by
    rw [isPlain, Bool.or_eq_true, Bool.and_eq_true, Bool.and_eq_true] at h
    simp only [decide_eq_true_eq] at h
    rcases h with ⟨-, h⟩ | ⟨-, h⟩
    · exact Nat.lt_succ_of_le h
    · exact Nat.lt_of_le_of_lt h (by decide)
  have hascii : ∀ n < 123, isPlain (Char.ofNat n) = true →
      shades (Char.ofNat n) = [Char.ofNat n] := by decide
  have hc := hascii c.toNat hbelow
  rw [Char.ofNat_toNat] at hc
  exact hc h

theorem nameWords_sanitize (name : String) : nameWords (sanitize name) = nameWords name := by
  have hchar : ∀ c ∈ (sanitize name).toList, shades c = [c] := by
    intro c hc
    rcases mem_sanitize hc with hplain | rfl
    · exact shades_of_isPlain hplain
    · decide
  have hkept : (sanitize name).toList.flatMap shades = (sanitize name).toList := by
    rw [List.flatMap_congr hchar, List.flatMap_singleton']
  rw [nameWords_eq_iff, hkept, sanitize_eq_join, String.toList_ofList]
  exact runs_join isWord_of_mem_nameWords

theorem sanitize_eq_empty_iff {name : String} : sanitize name = "" ↔ nameWords name = [] := by
  rw [sanitize_eq_join]
  constructor
  · intro h
    have hnil : join ['-'] (nameWords name) = [] := by
      rw [← String.toList_ofList (l := join ['-'] (nameWords name)), h]
      rfl
    cases hwords : nameWords name with
    | nil => rfl
    | cons w ws =>
      have hw : IsWord w := isWord_of_mem_nameWords w (by rw [hwords]; exact .head _)
      rw [hwords] at hnil
      exact absurd hnil (hw.join_ne_nil ws)
  · intro h
    rw [h]
    rfl

/-- Names with a dash between them are sanitized one by one; one without words leaves no dash. -/
theorem sanitize_append (a b : String) :
    sanitize (a ++ "-" ++ b) =
      String.intercalate "-" ([sanitize a, sanitize b].filter (· ≠ "")) := by
  rw [sanitize_eq_intercalate, nameWords_append, List.map_append]
  by_cases ha : nameWords a = []
  · have hleft : sanitize a = "" := sanitize_eq_empty_iff.mpr ha
    rw [ha, List.map_nil, List.nil_append, ← sanitize_eq_intercalate, hleft]
    by_cases hb : sanitize b = "" <;> simp [hb]
  · have hleft : sanitize a ≠ "" := mt sanitize_eq_empty_iff.mp ha
    by_cases hb : nameWords b = []
    · have hright : sanitize b = "" := sanitize_eq_empty_iff.mpr hb
      rw [hb, List.map_nil, List.append_nil, ← sanitize_eq_intercalate, hright]
      simp [hleft]
    · have hright : sanitize b ≠ "" := mt sanitize_eq_empty_iff.mp hb
      rw [String.intercalate_append_of_ne_nil (mt List.map_eq_nil_iff.mp ha)
        (mt List.map_eq_nil_iff.mp hb), ← sanitize_eq_intercalate, ← sanitize_eq_intercalate]
      simp [hleft, hright]

/-- **What a sanitized name is.** The longest runs of small ASCII letters and digits in the name in
lower case, joined by single dashes: so it is made of these characters and dashes, with no dash at
an end and no two beside each other, and sanitizing it again changes nothing. A dash or a point
between two names becomes one dash between the two names sanitized, or goes if one of them is
empty. -/
theorem sanitize_words :
    (∀ name, (∀ ws, Runs (lower name.toList) ws ↔ nameWords name = ws) ∧
      sanitize name = String.intercalate "-" ((nameWords name).map String.ofList)) ∧
    (∀ name, (∀ c ∈ (sanitize name).toList, isPlain c = true ∨ c = '-') ∧
      (sanitize name).toList.head? ≠ some '-' ∧ (sanitize name).toList.getLast? ≠ some '-' ∧
      ¬ ['-', '-'] <:+: (sanitize name).toList) ∧
    (∀ name, sanitize (sanitize name) = sanitize name) ∧
    (∀ a b, sanitize (a ++ "-" ++ b) = sanitize (a ++ "." ++ b) ∧
      sanitize (a ++ "-" ++ b) =
        String.intercalate "-" ([sanitize a, sanitize b].filter (· ≠ ""))) := by
  refine ⟨fun name => ⟨fun _ => runs_iff, sanitize_eq_intercalate name⟩,
    fun name => ⟨fun _ => mem_sanitize, ?_⟩, fun name => ?_,
    fun a b => ⟨(sanitize_point a b).symm, sanitize_append a b⟩⟩
  · rw [sanitize_eq_join, String.toList_ofList]
    exact separated_join isWord_of_mem_nameWords
  · rw [sanitize_eq_join, nameWords_sanitize, ← sanitize_eq_join]

end Downline.Token
