import Downline.Json.Document

/-!
# Literals wherever they stand

A reader takes a literal off the front of a text and answers what is left. What it reads depends on
the literal alone: in front of any other text the same characters are read in the same way. For a
string literal that holds of any text, since its closing quote ends it (`exists_readString?`); a
numeral must not be followed by what would go on with it (`exists_readNumeral?`).
-/

namespace Downline.Json.Document

open Decimal (Stops stops_nil stops_cons)

/-! ## Texts -/

theorem readPieces?_unit {a b c d : Char} {u : Nat} (hu : hexUnit? a b c d = some u)
    (rest : List Char) :
    readPieces? ('\\' :: 'u' :: a :: b :: c :: d :: rest) =
      (readPieces? rest).map (pieceCons (.unit u)) := by
  rw [readPieces?]
  simp only [hu]

theorem readPieces?_escape {c e : Char} (he : escaped? c = some e) (rest : List Char) :
    readPieces? ('\\' :: c :: rest) = (readPieces? rest).map (pieceCons (.char e)) := by
  rw [readPieces?.eq_4]
  · simp only [he]
  · rintro a b c' d rest' rfl
    cases he

theorem readPieces?_char {c : Char} (hquote : c ≠ '"') (hslash : c ≠ '\\')
    (hcontrol : ¬ c.toNat < 0x20) (rest : List Char) :
    readPieces? (c :: rest) = (readPieces? rest).map (pieceCons (.char c)) := by
  rw [readPieces?.eq_5 c rest hquote (fun _ _ _ _ _ h => absurd h hslash)
    (fun _ _ h => absurd h hslash)]
  simp [hslash, hcontrol]

theorem exists_readPieces? {cs rest : List Char} {pieces : List Piece}
    (h : readPieces? cs = some (pieces, rest)) :
    ∃ p, cs = p ++ rest ∧ ∀ rest', readPieces? (p ++ rest') = some (pieces, rest') := by
  -- what is in front of the rest of the literal is read by itself
  have front : ∀ {q cs : List Char} {piece : Piece} {pieces : List Piece},
      (∀ cs', readPieces? (q ++ cs') = (readPieces? cs').map (pieceCons piece)) →
      (∀ {pieces}, readPieces? cs = some (pieces, rest) →
        ∃ p, cs = p ++ rest ∧ ∀ rest', readPieces? (p ++ rest') = some (pieces, rest')) →
      (readPieces? cs).map (pieceCons piece) = some (pieces, rest) →
      ∃ p, q ++ cs = p ++ rest ∧ ∀ rest', readPieces? (p ++ rest') = some (pieces, rest') := by
    intro q cs piece pieces hq ih h
    obtain ⟨⟨read, left⟩, hread, heq⟩ := Option.map_eq_some_iff.mp h
    cases heq
    obtain ⟨p, rfl, hp⟩ := ih hread
    refine ⟨q ++ p, (List.append_assoc ..).symm, fun rest' => ?_⟩
    rw [List.append_assoc, hq, hp]
    rfl
  fun_induction readPieces? cs generalizing pieces with
  | case1 => cases h
  | case2 rest =>
    cases h
    exact ⟨['"'], rfl, fun rest' => by rw [List.singleton_append, readPieces?]⟩
  | case3 => cases h
  | case4 a b c d cs u hu ih =>
    exact front (q := ['\\', 'u', a, b, c, d]) (readPieces?_unit hu) ih h
  | case5 => cases h
  | case6 c cs _ e he ih => exact front (q := ['\\', c]) (readPieces?_escape he) ih h
  | case7 => cases h
  | case8 c cs hquote _ _ hplain ih =>
    rw [Bool.or_eq_true, decide_eq_true_eq, beq_iff_eq, not_or] at hplain
    exact front (q := [c]) (readPieces?_char hquote hplain.2 hplain.1) ih h

/-- A string literal is read in the same way in front of any text. -/
theorem exists_readString? {cs rest : List Char} {s : Option String}
    (h : readString? cs = some (s, rest)) :
    ∃ p, cs = p ++ rest ∧ ∀ rest', readString? (p ++ rest') = some (s, rest') := by
  obtain ⟨⟨pieces, left⟩, hread, heq⟩ := Option.map_eq_some_iff.mp h
  cases heq
  obtain ⟨p, rfl, hp⟩ := exists_readPieces? hread
  exact ⟨p, rfl, fun rest' => by rw [readString?, hp, Option.map_some]⟩

/-! ## Numerals -/

/-- The mark of an exponent. -/
def isMark (c : Char) : Bool := c == 'e' || c == 'E'

/-- A text that does not go on with a numeral in front of it. -/
structure Ends (rest : List Char) : Prop where
  digit : Stops Char.isDigit rest
  point : Stops (· == '.') rest
  mark : Stops isMark rest

theorem ends_nil : Ends [] := ⟨stops_nil _, stops_nil _, stops_nil _⟩

theorem readDigits?_append {ds rest : List Char} (hne : ds ≠ [])
    (hds : ∀ c ∈ ds, c.isDigit = true) (hrest : Stops Char.isDigit rest) :
    readDigits? (ds ++ rest) = some (ds, rest) := by
  obtain ⟨d, ds, rfl⟩ := List.exists_cons_of_ne_nil hne
  rw [readDigits?, Decimal.Digits.span_append hds hrest]

theorem readDigits?_parts {cs ds rest : List Char} (h : readDigits? cs = some (ds, rest)) :
    cs = ds ++ rest ∧ ds ≠ [] ∧ ∀ c ∈ ds, c.isDigit = true := by
  rw [readDigits?] at h
  split at h
  next => cases h
  next ds' rest' hne hspan =>
    cases h
    obtain ⟨hcs, hds, -⟩ := Decimal.Digits.span_parts hspan
    exact ⟨hcs, hne, hds⟩

/-- The digits before the decimal point are digits without a zero in front of others. -/
theorem readWhole?_eq_some_iff {cs ds rest : List Char} :
    readWhole? cs = some (ds, rest) ↔
      readDigits? cs = some (ds, rest) ∧ ∀ d ds', ds ≠ '0' :: d :: ds' := by
  rw [readWhole?]
  constructor
  · intro h
    split at h
    next => cases h
    next => cases h
    next read hzero hread =>
      cases h
      exact ⟨hread, fun d ds' heq => hzero d ds' rest (heq ▸ rfl)⟩
  · rintro ⟨h, hzero⟩
    rw [h]
    split
    next heq => cases heq
    next d ds' _ heq =>
      cases heq
      exact absurd rfl (hzero d ds')
    next heq => exact heq.symm

theorem exists_readFraction? {cs rest : List Char} {fraction : Option (List Char)}
    (h : readFraction? cs = some (fraction, rest)) :
    ∃ p, cs = p ++ rest ∧ Stops Char.isDigit p ∧
      ∀ rest', Stops Char.isDigit rest' → Stops (· == '.') rest' →
        readFraction? (p ++ rest') = some (fraction, rest') := by
  unfold readFraction? at h
  split at h
  next cs =>
    obtain ⟨⟨ds, left⟩, hread, heq⟩ := Option.map_eq_some_iff.mp h
    cases heq
    obtain ⟨rfl, hne, hds⟩ := readDigits?_parts hread
    refine ⟨'.' :: ds, rfl, stops_cons.mpr rfl, fun rest' hdigit _ => ?_⟩
    rw [List.cons_append, readFraction?, readDigits?_append hne hds hdigit, Option.map_some]
  next =>
    cases h
    refine ⟨[], rfl, stops_nil _, fun rest' _ hpoint => ?_⟩
    rw [List.nil_append, readFraction?]
    rintro rest'' rfl
    cases stops_cons.mp hpoint

theorem readSign_digits {ds : List Char} (hne : ds ≠ []) (hds : ∀ c ∈ ds, c.isDigit = true)
    (rest : List Char) : readSign (ds ++ rest) = (false, ds ++ rest) := by
  obtain ⟨d, ds, rfl⟩ := List.exists_cons_of_ne_nil hne
  have hd := hds d List.mem_cons_self
  rw [List.cons_append, readSign]
  · rintro _ heq
    cases heq
    cases hd
  · rintro _ heq
    cases heq
    cases hd

/-- The sign of an exponent is read by itself in front of digits. -/
theorem exists_readSign (cs : List Char) :
    ∃ p, cs = p ++ (readSign cs).2 ∧ ∀ ds rest', ds ≠ [] → (∀ c ∈ ds, c.isDigit = true) →
      readSign (p ++ (ds ++ rest')) = ((readSign cs).1, ds ++ rest') := by
  unfold readSign
  split
  next => exact ⟨['+'], rfl, fun _ _ _ _ => rfl⟩
  next => exact ⟨['-'], rfl, fun _ _ _ _ => rfl⟩
  next => exact ⟨[], rfl, fun ds rest' hne hds => readSign_digits hne hds rest'⟩

theorem readExponent?_absent {cs : List Char} (h : Stops isMark cs) :
    readExponent? cs = some (none, cs) := by
  cases cs with
  | nil => rfl
  | cons c cs =>
    have hc : (c == 'e' || c == 'E') = false := stops_cons.mp h
    simp [readExponent?, hc]

theorem readExponent?_marked {c : Char} (hc : isMark c = true) (cs : List Char) :
    readExponent? (c :: cs) =
      (readDigits? (readSign cs).2).map fun read => (some ((readSign cs).1, read.1), read.2) := by
  rw [isMark] at hc
  rw [readExponent?, if_pos hc]

theorem exists_readExponent? {cs rest : List Char} {exponent : Option (Bool × List Char)}
    (h : readExponent? cs = some (exponent, rest)) :
    ∃ p, cs = p ++ rest ∧ Stops Char.isDigit p ∧ Stops (· == '.') p ∧
      ∀ rest', Stops Char.isDigit rest' → Stops isMark rest' →
        readExponent? (p ++ rest') = some (exponent, rest') := by
  by_cases hmark : Stops isMark cs
  · rw [readExponent?_absent hmark] at h
    cases h
    exact ⟨[], rfl, stops_nil _, stops_nil _, fun rest' _ => readExponent?_absent⟩
  · obtain ⟨c, cs, rfl⟩ : ∃ c cs', cs = c :: cs' :=
      List.exists_cons_of_ne_nil fun hnil => hmark (hnil ▸ stops_nil _)
    have hc : isMark c = true := Bool.not_eq_false _ ▸ mt stops_cons.mpr hmark
    rw [readExponent?_marked hc] at h
    obtain ⟨⟨ds, left⟩, hread, heq⟩ := Option.map_eq_some_iff.mp h
    cases heq
    obtain ⟨sign, hsign, hsigned⟩ := exists_readSign cs
    obtain ⟨hcs, hne, hds⟩ := readDigits?_parts hread
    have hother : c.isDigit = false ∧ (c == '.') = false := by
      rcases Bool.or_eq_true_iff.mp hc with hc | hc <;> rw [beq_iff_eq.mp hc] <;> exact ⟨rfl, rfl⟩
    refine ⟨c :: (sign ++ ds), ?_, stops_cons.mpr hother.1, stops_cons.mpr hother.2,
      fun rest' hdigit _ => ?_⟩
    · rw [hcs, ← List.append_assoc] at hsign
      exact congrArg (c :: ·) hsign
    · rw [List.cons_append, List.append_assoc, readExponent?_marked hc, hsigned ds rest' hne hds,
        readDigits?_append hne hds hdigit, Option.map_some]

/-- A numeral opens with a digit or a minus sign. -/
def opensNumeral (c : Char) : Bool := c.isDigit || c == '-'

theorem exists_readUnsigned? {negative : Bool} {cs rest : List Char} {n : Numeral}
    (h : readUnsigned? negative cs = some (n, rest)) :
    ∃ d p, d.isDigit = true ∧ cs = d :: p ++ rest ∧
      ∀ rest', Ends rest' → readUnsigned? negative (d :: p ++ rest') = some (n, rest') := by
  simp only [readUnsigned?, Option.bind_eq_bind, Option.bind_eq_some_iff, Option.pure_def] at h
  obtain ⟨⟨whole, cs₁⟩, hwhole, ⟨fraction, cs₂⟩, hfraction, ⟨exponent, cs₃⟩, hexponent, heq⟩ := h
  cases heq
  obtain ⟨hread, hzero⟩ := readWhole?_eq_some_iff.mp hwhole
  obtain ⟨rfl, hne, hds⟩ := readDigits?_parts hread
  obtain ⟨f, rfl, hf, hfraction'⟩ := exists_readFraction? hfraction
  obtain ⟨e, rfl, he, hepoint, hexponent'⟩ := exists_readExponent? hexponent
  obtain ⟨d, ds, rfl⟩ := List.exists_cons_of_ne_nil hne
  refine ⟨d, ds ++ (f ++ e), hds d List.mem_cons_self, by simp, fun rest' hrest => ?_⟩
  have hdigit := he.append hrest.digit
  have hwhole' : readWhole? (d :: ds ++ (f ++ (e ++ rest'))) = some (d :: ds, f ++ (e ++ rest')) :=
    readWhole?_eq_some_iff.mpr ⟨readDigits?_append hne hds (hf.append hdigit), hzero⟩
  have htext : d :: (ds ++ (f ++ e)) ++ rest' = d :: ds ++ (f ++ (e ++ rest')) := by simp
  simp only [readUnsigned?, htext, hwhole', hfraction' _ hdigit (hepoint.append hrest.point),
    hexponent' _ hrest.digit hrest.mark, Option.bind_eq_bind, Option.bind_some, Option.pure_def]

theorem readNumeral?_of_digit {c : Char} (hc : c.isDigit = true) (cs : List Char) :
    readNumeral? (c :: cs) = readUnsigned? false (c :: cs) := by
  rw [readNumeral?]
  rintro _ heq
  cases heq
  cases hc

/-- A numeral is read in the same way in front of any text that does not go on with it. -/
theorem exists_readNumeral? {cs rest : List Char} {n : Numeral}
    (h : readNumeral? cs = some (n, rest)) :
    ∃ c p, opensNumeral c = true ∧ cs = c :: p ++ rest ∧
      ∀ rest', Ends rest' → readNumeral? (c :: p ++ rest') = some (n, rest') := by
  unfold readNumeral? at h
  split at h
  next =>
    obtain ⟨d, p, -, rfl, hp⟩ := exists_readUnsigned? h
    exact ⟨'-', d :: p, rfl, rfl, hp⟩
  next =>
    obtain ⟨d, p, hd, rfl, hp⟩ := exists_readUnsigned? h
    refine ⟨d, p, by rw [opensNumeral, hd, Bool.true_or], rfl, fun rest' hrest => ?_⟩
    rw [List.cons_append, readNumeral?_of_digit hd]
    exact hp rest' hrest

/-- A whole number is read as the numeral that it is written as. -/
theorem readNumeral?_ofNat (n : Nat) {rest : List Char} (hrest : Ends rest) :
    readNumeral? (Decimal.Digits.ofNat n ++ rest) = some (.ofNat n, rest) := by
  have hds := Decimal.Digits.isDigit_of_mem_ofNat n
  have hne := Decimal.Digits.ofNat_ne_nil n
  have hwhole : readWhole? (Decimal.Digits.ofNat n ++ rest) =
      some (Decimal.Digits.ofNat n, rest) :=
    readWhole?_eq_some_iff.mpr
      ⟨readDigits?_append hne hds hrest.digit, Decimal.Digits.ofNat_ne_zero_cons n⟩
  have hfraction : readFraction? rest = some (none, rest) := by
    unfold readFraction?
    split
    next => cases stops_cons.mp hrest.point
    next => rfl
  have hunsigned : readUnsigned? false (Decimal.Digits.ofNat n ++ rest) =
      some (.ofNat n, rest) := by
    simp only [readUnsigned?, hwhole, hfraction, readExponent?_absent hrest.mark,
      Option.bind_eq_bind, Option.bind_some, Option.pure_def]
    rfl
  obtain ⟨d, ds, hd⟩ := List.exists_cons_of_ne_nil hne
  rw [hd] at hds hunsigned ⊢
  exact (readNumeral?_of_digit (hds d List.mem_cons_self) _).trans hunsigned

end Downline.Json.Document
