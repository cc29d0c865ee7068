import Downline.Proofs.Json.Literal

/-!
# Documents wherever they stand

`Reads p d` says that the text `p` is read as the document `d` whatever text follows it, if only
that does not go on with a numeral. The rules of the grammar are laws of this notion: a list is read
if its items are, an object if its entries are. What is written by these rules is therefore read
back, and what has been read was written by them (`exists_reads`). So a text that is one document is
still that document when the blanks around it are taken away (`exists_reads_of_ofChars?`,
`ofChars?_of_reads`).
-/

namespace Downline.Json.Document

open Decimal (Stops stops_nil stops_cons)

/-! ## Blanks -/

def Blanks (cs : List Char) : Prop := ∀ c ∈ cs, isBlank c = true

theorem blanks_nil : Blanks [] := nofun

theorem skipBlank_append {b : List Char} (hb : Blanks b) (cs : List Char) :
    skipBlank (b ++ cs) = skipBlank cs :=
  List.dropWhile_append_of_pos hb

theorem exists_blanks (cs : List Char) : ∃ b, Blanks b ∧ cs = b ++ skipBlank cs :=
  ⟨cs.takeWhile isBlank, List.all_eq_true.mp List.all_takeWhile,
    List.takeWhile_append_dropWhile.symm⟩

theorem skipBlank_cons {c : Char} (hc : isBlank c = false) (cs : List Char) :
    skipBlank (c :: cs) = c :: cs := by
  rw [skipBlank, List.dropWhile_cons_of_neg (by rw [hc]; exact Bool.false_ne_true)]

theorem skipBlank_eq_nil_iff {cs : List Char} : skipBlank cs = [] ↔ Blanks cs := by
  constructor
  · intro h
    obtain ⟨b, hb, hcs⟩ := exists_blanks cs
    rw [h, List.append_nil] at hcs
    exact hcs ▸ hb
  · intro h
    rw [← List.append_nil cs, skipBlank_append h]
    rfl

/-- There are four blanks. -/
theorem isBlank_cases {c : Char} (hc : isBlank c = true) :
    c = ' ' ∨ c = '\t' ∨ c = '\n' ∨ c = '\r' := by
  simp only [isBlank, Bool.or_eq_true, beq_iff_eq] at hc
  rcases hc with ((hc | hc) | hc) | hc
  · exact .inl hc
  · exact .inr (.inl hc)
  · exact .inr (.inr (.inl hc))
  · exact .inr (.inr (.inr hc))

/-- Blanks keep a numeral from going on. -/
theorem Blanks.ends_append {b rest : List Char} (hb : Blanks b) (hrest : Ends rest) :
    Ends (b ++ rest) := by
  cases b with
  | nil => exact hrest
  | cons c b =>
    rcases isBlank_cases (hb c List.mem_cons_self) with rfl | rfl | rfl | rfl <;>
      exact ⟨stops_cons.mpr rfl, stops_cons.mpr rfl, stops_cons.mpr rfl⟩

theorem readValue?_blanks {b : List Char} (hb : Blanks b) (fuel : Nat) (cs : List Char) :
    readValue? fuel (b ++ cs) = readValue? fuel cs := by
  cases fuel with
  | zero => rw [readValue?_zero, readValue?_zero]
  | succ fuel => rw [readValue?, skipBlank_append hb, ← readValue?]

/-! ## What it is to be read -/

/-- A text is read as a document, whatever follows it. -/
def Reads (p : List Char) (d : Document) : Prop :=
  ∀ rest, Ends rest → ∀ fuel, p.length ≤ fuel → readValue? fuel (p ++ rest) = some (d, rest)

/-- The same of a text with blanks around it, in front of what goes on with a list or an object. -/
def ReadsPadded (p : List Char) (d : Document) : Prop :=
  ∀ c rest, c = ',' ∨ c = ']' ∨ c = '\x7d' → ∀ fuel, p.length ≤ fuel →
    ∃ left, readValue? fuel (p ++ c :: rest) = some (d, left) ∧ skipBlank left = c :: rest

/-- A text is read as the items of a list in front of the closing bracket. -/
def ReadsItems (p : List Char) (ds : List Document) : Prop :=
  ∀ rest fuel, p.length < fuel → readItems? fuel (p ++ ']' :: rest) = some (ds, rest)

/-- A text is read as the entries of an object in front of the closing brace. -/
def ReadsEntries (p : List Char) (es : List (Option String × Document)) : Prop :=
  ∀ rest fuel, p.length < fuel → readEntries? fuel (p ++ '\x7d' :: rest) = some (es, rest)

theorem Reads.padded {b p b' : List Char} {d : Document} (h : Reads p d) (hb : Blanks b)
    (hb' : Blanks b') : ReadsPadded (b ++ (p ++ b')) d := by
  intro c rest hc fuel hfuel
  have hends : Ends (c :: rest) := by
    rcases hc with rfl | rfl | rfl <;>
      exact ⟨stops_cons.mpr rfl, stops_cons.mpr rfl, stops_cons.mpr rfl⟩
  have hplain : isBlank c = false := by rcases hc with rfl | rfl | rfl <;> rfl
  refine ⟨b' ++ c :: rest, ?_, ?_⟩
  · rw [List.append_assoc, List.append_assoc, readValue?_blanks hb]
    refine h _ (hb'.ends_append hends) fuel ?_
    simp only [List.length_append] at hfuel
    omega
  · rw [skipBlank_append hb', skipBlank_cons hplain]

theorem Reads.unpadded {p : List Char} {d : Document} (h : Reads p d) : ReadsPadded p d := by
  have hpadded := h.padded blanks_nil blanks_nil
  rwa [List.nil_append, List.append_nil] at hpadded

/-- Reading takes a step. -/
theorem reads_of_succ {p : List Char} {d : Document} (hne : p ≠ [])
    (h : ∀ rest, Ends rest → ∀ fuel, p.length ≤ fuel + 1 →
      readValue? (fuel + 1) (p ++ rest) = some (d, rest)) : Reads p d := by
  intro rest hrest fuel hfuel
  cases fuel with
  | zero => exact absurd (List.length_eq_zero_iff.mp (Nat.le_zero.mp hfuel)) hne
  | succ fuel => exact h rest hrest fuel hfuel

/-! ## Words and literals -/

theorem reads_null : Reads ['n', 'u', 'l', 'l'] .null :=
  reads_of_succ nofun fun _ _ _ _ => rfl

theorem reads_true : Reads ['t', 'r', 'u', 'e'] (.bool true) :=
  reads_of_succ nofun fun _ _ _ _ => rfl

theorem reads_false : Reads ['f', 'a', 'l', 's', 'e'] (.bool false) :=
  reads_of_succ nofun fun _ _ _ _ => rfl

theorem reads_text {p : List Char} {s : Option String}
    (h : ∀ rest, readString? (p ++ rest) = some (s, rest)) : Reads ('"' :: p) (.text s) := by
  refine reads_of_succ nofun fun rest _ fuel _ => ?_
  rw [List.cons_append, readValue?, skipBlank_cons rfl]
  simp only [h, Option.map_some]

theorem readValue?_numeral {c : Char} (hc : opensNumeral c = true) (fuel : Nat) (cs : List Char) :
    readValue? (fuel + 1) (c :: cs) =
      (readNumeral? (c :: cs)).map fun read => (.number read.1, read.2) := by
  have hplain : isBlank c = false := by
    refine Bool.eq_false_iff.mpr fun hblank => ?_
    rcases isBlank_cases hblank with rfl | rfl | rfl | rfl <;> cases hc
  rw [readValue?, skipBlank_cons hplain]
  -- what opens a numeral opens nothing else
  split
  case h_7 => rfl
  all_goals
    next heq =>
      cases heq
      cases hc

theorem reads_numeral {c : Char} {p : List Char} {n : Numeral} (hc : opensNumeral c = true)
    (h : ∀ rest, Ends rest → readNumeral? (c :: p ++ rest) = some (n, rest)) :
    Reads (c :: p) (.number n) := by
  refine reads_of_succ nofun fun rest hrest fuel _ => ?_
  rw [List.cons_append, readValue?_numeral hc, ← List.cons_append, h rest hrest, Option.map_some]

/-! ## Lists -/

theorem readsItems_last {p : List Char} {d : Document} (h : ReadsPadded p d) :
    ReadsItems p [d] := by
  intro rest fuel hfuel
  cases fuel with
  | zero => exact absurd hfuel (Nat.not_lt_zero _)
  | succ fuel =>
    obtain ⟨left, hread, hleft⟩ := h ']' rest (.inr (.inl rfl)) fuel (Nat.le_of_lt_succ hfuel)
    rw [readItems?, hread]
    simp only [hleft]

theorem readsItems_cons {p q : List Char} {d : Document} {ds : List Document}
    (h : ReadsPadded p d) (hq : ReadsItems q ds) : ReadsItems (p ++ ',' :: q) (d :: ds) := by
  intro rest fuel hfuel
  cases fuel with
  | zero => exact absurd hfuel (Nat.not_lt_zero _)
  | succ fuel =>
    rw [List.length_append, List.length_cons] at hfuel
    obtain ⟨left, hread, hleft⟩ := h ',' (q ++ ']' :: rest) (.inl rfl) fuel (by omega)
    rw [List.append_assoc, List.cons_append, readItems?, hread]
    simp only [hleft, hq rest fuel (by omega), Option.map_some]

/-- Items do not begin with the bracket that closes the list. -/
theorem skipBlank_ne_of_readItems? {fuel : Nat} {cs : List Char} {read : List Document × List Char}
    (h : readItems? fuel cs = some read) (rest : List Char) : skipBlank cs ≠ ']' :: rest := by
  intro hskip
  have hnone : ∀ fuel, readValue? fuel cs = none := by
    rintro (_ | fuel)
    · exact readValue?_zero cs
    · rw [readValue?, hskip]
      rfl
  cases fuel with
  | zero => cases h
  | succ fuel =>
    rw [readItems?, hnone] at h
    cases h

theorem readItems?_skipBlank (fuel : Nat) (cs : List Char) :
    readItems? fuel (skipBlank cs) = readItems? fuel cs := by
  obtain ⟨b, hb, hcs⟩ := exists_blanks cs
  cases fuel with
  | zero => rw [readItems?_zero, readItems?_zero]
  | succ fuel =>
    conv => rhs; rw [hcs]
    rw [readItems?, readItems?, readValue?_blanks hb]

theorem readValue?_list {fuel : Nat} {cs rest : List Char} {items : List Document}
    (h : readItems? fuel cs = some (items, rest)) :
    readValue? (fuel + 1) ('[' :: cs) = some (.list items, rest) := by
  rw [readValue?, skipBlank_cons rfl]
  simp only
  split
  next hskip => exact absurd hskip (skipBlank_ne_of_readItems? h _)
  next => rw [readItems?_skipBlank, h, Option.map_some]

theorem reads_list_nil {b : List Char} (hb : Blanks b) :
    Reads ('[' :: (b ++ [']'])) (.list []) := by
  refine reads_of_succ nofun fun rest _ fuel _ => ?_
  rw [List.cons_append, readValue?, skipBlank_cons rfl, List.append_assoc]
  simp only [skipBlank_append hb]
  rfl

theorem reads_list {p : List Char} {ds : List Document} (h : ReadsItems p ds) :
    Reads ('[' :: (p ++ [']'])) (.list ds) := by
  refine reads_of_succ nofun fun rest _ fuel hfuel => ?_
  simp only [List.length_cons, List.length_append, List.length_nil] at hfuel
  rw [List.cons_append, List.append_assoc]
  exact readValue?_list (h rest fuel (by omega))

/-! ## Objects -/

section Entry

variable {b k b' : List Char} {key : Option String} (hb : Blanks b)
  (hk : ∀ rest, readString? (k ++ rest) = some (key, rest)) (hb' : Blanks b')

include hb hk hb'

theorem readsEntries_last {p : List Char} {d : Document} (h : ReadsPadded p d) :
    ReadsEntries (b ++ '"' :: (k ++ (b' ++ ':' :: p))) [(key, d)] := by
  intro rest fuel hfuel
  cases fuel with
  | zero => exact absurd hfuel (Nat.not_lt_zero _)
  | succ fuel =>
    simp only [List.length_append, List.length_cons] at hfuel
    obtain ⟨left, hread, hleft⟩ := h '\x7d' rest (.inr (.inr rfl)) fuel (by omega)
    simp only [List.append_assoc, List.cons_append]
    rw [readEntries?, skipBlank_append hb, skipBlank_cons rfl]
    simp only [hk, skipBlank_append hb', skipBlank_cons (c := ':') rfl, hread, hleft]

theorem readsEntries_cons {p q : List Char} {d : Document} {es : List (Option String × Document)}
    (h : ReadsPadded p d) (hq : ReadsEntries q es) :
    ReadsEntries (b ++ '"' :: (k ++ (b' ++ ':' :: (p ++ ',' :: q)))) ((key, d) :: es) := by
  intro rest fuel hfuel
  cases fuel with
  | zero => exact absurd hfuel (Nat.not_lt_zero _)
  | succ fuel =>
    simp only [List.length_append, List.length_cons] at hfuel
    obtain ⟨left, hread, hleft⟩ := h ',' (q ++ '\x7d' :: rest) (.inl rfl) fuel (by omega)
    simp only [List.append_assoc, List.cons_append]
    rw [readEntries?, skipBlank_append hb, skipBlank_cons rfl]
    simp only [hk, skipBlank_append hb', skipBlank_cons (c := ':') rfl, hread, hleft,
      hq rest fuel (by omega), Option.map_some]

end Entry

/-- Entries do not begin with the brace that closes the object. -/
theorem skipBlank_ne_of_readEntries? {fuel : Nat} {cs : List Char}
    {read : List (Option String × Document) × List Char}
    (h : readEntries? fuel cs = some read) (rest : List Char) : skipBlank cs ≠ '\x7d' :: rest := by
  intro hskip
  cases fuel with
  | zero => cases h
  | succ fuel =>
    rw [readEntries?, hskip] at h
    cases h

theorem readEntries?_skipBlank (fuel : Nat) (cs : List Char) :
    readEntries? fuel (skipBlank cs) = readEntries? fuel cs := by
  obtain ⟨b, hb, hcs⟩ := exists_blanks cs
  cases fuel with
  | zero => rw [readEntries?_zero, readEntries?_zero]
  | succ fuel =>
    have hskip : skipBlank (skipBlank cs) = skipBlank cs := by
      conv => rhs; rw [hcs, skipBlank_append hb]
    rw [readEntries?, readEntries?, hskip]

theorem readValue?_object {fuel : Nat} {cs rest : List Char}
    {es : List (Option String × Document)} (h : readEntries? fuel cs = some (es, rest)) :
    readValue? (fuel + 1) ('\x7b' :: cs) = some (.object es, rest) := by
  rw [readValue?, skipBlank_cons rfl]
  simp only
  split
  next hskip => exact absurd hskip (skipBlank_ne_of_readEntries? h _)
  next => rw [readEntries?_skipBlank, h, Option.map_some]

theorem reads_object_nil {b : List Char} (hb : Blanks b) :
    Reads ('\x7b' :: (b ++ ['\x7d'])) (.object []) := by
  refine reads_of_succ nofun fun rest _ fuel _ => ?_
  rw [List.cons_append, readValue?, skipBlank_cons rfl, List.append_assoc]
  simp only [skipBlank_append hb]
  rfl

theorem reads_object {p : List Char} {es : List (Option String × Document)}
    (h : ReadsEntries p es) : Reads ('\x7b' :: (p ++ ['\x7d'])) (.object es) := by
  refine reads_of_succ nofun fun rest _ fuel hfuel => ?_
  simp only [List.length_cons, List.length_append, List.length_nil] at hfuel
  rw [List.cons_append, List.append_assoc]
  exact readValue?_object (h rest fuel (by omega))

/-! ## What has been read -/

/-- What was read of a text as a document stands behind blanks; a list stands between brackets. -/
def ValueRead (cs : List Char) (d : Document) (rest : List Char) : Prop :=
  ∃ b p, cs = b ++ (p ++ rest) ∧ Blanks b ∧ Reads p d ∧
    ∀ items, d = .list items → ∃ q, p = '[' :: (q ++ [']'])

/-- What was read as the items of a list stands in front of the closing bracket. -/
def ItemsRead (cs : List Char) (ds : List Document) (rest : List Char) : Prop :=
  ∃ p, cs = p ++ ']' :: rest ∧ ReadsItems p ds

/-- What was read as the entries of an object stands in front of the closing brace. -/
def EntriesRead (cs : List Char) (es : List (Option String × Document)) (rest : List Char) : Prop :=
  ∃ p, cs = p ++ '\x7d' :: rest ∧ ReadsEntries p es

theorem ValueRead.behind_blanks {b cs rest : List Char} {d : Document} (h : ValueRead cs d rest)
    (hb : Blanks b) : ValueRead (b ++ cs) d rest := by
  obtain ⟨b', p, rfl, hb', hp, hlist⟩ := h
  have hblanks : Blanks (b ++ b') := fun c hc =>
    (List.mem_append.mp hc).elim (hb c) (hb' c)
  exact ⟨b ++ b', p, (List.append_assoc ..).symm, hblanks, hp, hlist⟩

theorem exists_padded {cs rest : List Char} {d : Document} {c : Char}
    (h : ValueRead cs d rest) {rest' : List Char} (hrest : skipBlank rest = c :: rest') :
    ∃ p, cs = p ++ c :: rest' ∧ ReadsPadded p d := by
  obtain ⟨b, p, rfl, hb, hp, -⟩ := h
  obtain ⟨b', hb', hcs⟩ := exists_blanks rest
  rw [hrest] at hcs
  exact ⟨b ++ (p ++ b'), by rw [hcs]; simp, hp.padded hb hb'⟩

theorem valueRead_of_ne_list {p rest : List Char} {d : Document} (hp : Reads p d)
    (hne : ∀ items, d ≠ .list items) : ValueRead (p ++ rest) d rest :=
  ⟨[], p, rfl, blanks_nil, hp, fun items h => absurd h (hne items)⟩

theorem valueRead_list {q rest : List Char} {items : List Document}
    (hp : Reads ('[' :: (q ++ [']'])) (.list items)) :
    ValueRead ('[' :: (q ++ ']' :: rest)) (.list items) rest :=
  ⟨[], _, by simp, blanks_nil, hp, fun _ _ => ⟨q, rfl⟩⟩

theorem valueRead_object {q rest : List Char} {es : List (Option String × Document)}
    (hp : Reads ('\x7b' :: (q ++ ['\x7d'])) (.object es)) :
    ValueRead ('\x7b' :: (q ++ '\x7d' :: rest)) (.object es) rest :=
  ⟨[], _, by simp, blanks_nil, hp, by simp⟩

/-! ### One step of each reader -/

section Step

variable {fuel : Nat}

/-- A list, from what is read as items with less fuel. -/
theorem valueRead_of_bracket
    (items : ∀ {cs ds rest}, readItems? fuel cs = some (ds, rest) → ItemsRead cs ds rest)
    {cs rest : List Char} {d : Document} (h : readValue? (fuel + 1) ('[' :: cs) = some (d, rest)) :
    ValueRead ('[' :: cs) d rest := by
  rw [readValue?, skipBlank_cons rfl] at h
  simp only at h
  split at h
  next hclose =>
    cases h
    obtain ⟨b, hb, hcs⟩ := exists_blanks cs
    rw [hcs, hclose]
    exact valueRead_list (reads_list_nil hb)
  next =>
    rw [readItems?_skipBlank] at h
    obtain ⟨⟨ds, left⟩, hread, heq⟩ := Option.map_eq_some_iff.mp h
    cases heq
    obtain ⟨p, rfl, hp⟩ := items hread
    exact valueRead_list (reads_list hp)

/-- An object, from what is read as entries with less fuel. -/
theorem valueRead_of_brace
    (entries : ∀ {cs es rest}, readEntries? fuel cs = some (es, rest) → EntriesRead cs es rest)
    {cs rest : List Char} {d : Document}
    (h : readValue? (fuel + 1) ('\x7b' :: cs) = some (d, rest)) :
    ValueRead ('\x7b' :: cs) d rest := by
  rw [readValue?, skipBlank_cons rfl] at h
  simp only at h
  split at h
  next hclose =>
    cases h
    obtain ⟨b, hb, hcs⟩ := exists_blanks cs
    rw [hcs, hclose]
    exact valueRead_object (reads_object_nil hb)
  next =>
    rw [readEntries?_skipBlank] at h
    obtain ⟨⟨es, left⟩, hread, heq⟩ := Option.map_eq_some_iff.mp h
    cases heq
    obtain ⟨p, rfl, hp⟩ := entries hread
    exact valueRead_object (reads_object hp)

/-- A value: what it begins with says which one it is. -/
theorem valueRead_succ
    (items : ∀ {cs ds rest}, readItems? fuel cs = some (ds, rest) → ItemsRead cs ds rest)
    (entries : ∀ {cs es rest}, readEntries? fuel cs = some (es, rest) → EntriesRead cs es rest)
    {cs rest : List Char} {d : Document} (h : readValue? (fuel + 1) cs = some (d, rest)) :
    ValueRead cs d rest := by
  obtain ⟨b, hb, hcs⟩ := exists_blanks cs
  have hplain : readValue? (fuel + 1) (skipBlank cs) = some (d, rest) := by
    rw [← readValue?_blanks hb, ← hcs, h]
  suffices hread : ValueRead (skipBlank cs) d rest from hcs ▸ hread.behind_blanks hb
  rw [readValue?] at h
  split at h
  next hskip =>
    cases h
    rw [hskip]
    exact valueRead_of_ne_list reads_null (by simp)
  next hskip =>
    cases h
    rw [hskip]
    exact valueRead_of_ne_list reads_true (by simp)
  next hskip =>
    cases h
    rw [hskip]
    exact valueRead_of_ne_list reads_false (by simp)
  next text hskip =>
    obtain ⟨⟨s, left⟩, hread, heq⟩ := Option.map_eq_some_iff.mp h
    cases heq
    obtain ⟨p, rfl, hp⟩ := exists_readString? hread
    rw [hskip]
    exact valueRead_of_ne_list (reads_text hp) (by simp)
  next hskip =>
    rw [hskip] at hplain ⊢
    exact valueRead_of_bracket items hplain
  next hskip =>
    rw [hskip] at hplain ⊢
    exact valueRead_of_brace entries hplain
  next =>
    obtain ⟨⟨n, left⟩, hread, heq⟩ := Option.map_eq_some_iff.mp h
    cases heq
    obtain ⟨c, p, hc, hskip, hp⟩ := exists_readNumeral? hread
    rw [hskip]
    exact valueRead_of_ne_list (reads_numeral hc hp) (by simp)

/-- Items: a value, and then the bracket or a comma and more items. -/
theorem itemsRead_succ
    (value : ∀ {cs d rest}, readValue? fuel cs = some (d, rest) → ValueRead cs d rest)
    (items : ∀ {cs ds rest}, readItems? fuel cs = some (ds, rest) → ItemsRead cs ds rest)
    {cs rest : List Char} {ds : List Document} (h : readItems? (fuel + 1) cs = some (ds, rest)) :
    ItemsRead cs ds rest := by
  rw [readItems?] at h
  split at h
  next => cases h
  next d left hread =>
    split at h
    next more hleft =>
      obtain ⟨⟨ds', left'⟩, hmore, heq⟩ := Option.map_eq_some_iff.mp h
      cases heq
      obtain ⟨p, rfl, hp⟩ := exists_padded (value hread) hleft
      obtain ⟨q, rfl, hq⟩ := items hmore
      exact ⟨p ++ ',' :: q, by simp, readsItems_cons hp hq⟩
    next hleft =>
      cases h
      obtain ⟨p, rfl, hp⟩ := exists_padded (value hread) hleft
      exact ⟨p, rfl, readsItems_last hp⟩
    next => cases h

/-- Entries: a key, a colon and a value, and then the brace or a comma and more entries. -/
theorem entriesRead_succ
    (value : ∀ {cs d rest}, readValue? fuel cs = some (d, rest) → ValueRead cs d rest)
    (entries : ∀ {cs es rest}, readEntries? fuel cs = some (es, rest) → EntriesRead cs es rest)
    {cs rest : List Char} {es : List (Option String × Document)}
    (h : readEntries? (fuel + 1) cs = some (es, rest)) : EntriesRead cs es rest := by
  obtain ⟨b, hb, hcs⟩ := exists_blanks cs
  rw [readEntries?] at h
  split at h
  next behind hskip =>
    rw [hskip] at hcs
    split at h
    next => cases h
    next key afterKey hkey =>
      obtain ⟨k, rfl, hk⟩ := exists_readString? hkey
      obtain ⟨b', hb', hafter⟩ := exists_blanks afterKey
      split at h
      next text hcolon =>
        rw [hcolon] at hafter
        subst hafter
        split at h
        next => cases h
        next d left hread =>
          split at h
          next more hleft =>
            obtain ⟨⟨es', left'⟩, hmore, heq⟩ := Option.map_eq_some_iff.mp h
            cases heq
            obtain ⟨p, rfl, hp⟩ := exists_padded (value hread) hleft
            obtain ⟨q, rfl, hq⟩ := entries hmore
            exact ⟨_, by rw [hcs]; simp, readsEntries_cons hb hk hb' hp hq⟩
          next hleft =>
            cases h
            obtain ⟨p, rfl, hp⟩ := exists_padded (value hread) hleft
            exact ⟨_, by rw [hcs]; simp, readsEntries_last hb hk hb' hp⟩
          next => cases h
      next => cases h
  next => cases h

end Step

/-- All three readers, by induction on the fuel. -/
theorem exists_reads_of_fuel (fuel : Nat) :
    (∀ {cs d rest}, readValue? fuel cs = some (d, rest) → ValueRead cs d rest) ∧
    (∀ {cs ds rest}, readItems? fuel cs = some (ds, rest) → ItemsRead cs ds rest) ∧
    (∀ {cs es rest}, readEntries? fuel cs = some (es, rest) → EntriesRead cs es rest) := by
  induction fuel with
  | zero => simp
  | succ fuel ih =>
    obtain ⟨value, items, entries⟩ := ih
    exact ⟨valueRead_succ items entries, itemsRead_succ value items,
      entriesRead_succ value entries⟩

/-- **What has been read is a text that is read wherever it stands**, with blanks in front. -/
theorem exists_reads {fuel : Nat} {cs rest : List Char} {d : Document}
    (h : readValue? fuel cs = some (d, rest)) : ValueRead cs d rest :=
  (exists_reads_of_fuel fuel).1 h

theorem ofChars?_of_reads {p b : List Char} {d : Document} (hp : Reads p d) (hb : Blanks b) :
    ofChars? (p ++ b) = some d := by
  have hends : Ends b := by
    have h := hb.ends_append ends_nil
    rwa [List.append_nil] at h
  have hread := hp b hends ((p ++ b).length + 1) (by rw [List.length_append]; omega)
  rw [ofChars?, hread]
  simp only [skipBlank_eq_nil_iff.mpr hb, if_true]

theorem exists_reads_of_ofChars? {cs : List Char} {d : Document} (h : ofChars? cs = some d) :
    ∃ b, Blanks b ∧ ValueRead cs d b := by
  rw [ofChars?] at h
  split at h
  next => cases h
  next hread =>
    split at h
    next hskip =>
      cases h
      exact ⟨_, skipBlank_eq_nil_iff.mp hskip, exists_reads hread⟩
    next => cases h

end Downline.Json.Document
