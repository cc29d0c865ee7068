import Downline.Toml.Style

/-!
# Literals are read back

A text is written in one of four styles, and whichever it is, the reader gets the text back
(`readText?_literalBefore`). The style was chosen so that it can hold the text, and what that takes
is stated here style by style: between single quotes there is no escape, so the text must not have
what would need one; between double quotes any text can stand.

Between three quotes the reader looks ahead: three quotes in a row end the literal, and up to two
more in front of them belong to the text. So quotes are followed as runs. What is said of a text
holds with the quotes that were written right before it put in front again, and there are never more
than two.

A literal must not be followed by a quote, which might count as one more quote of its end.
-/

namespace Downline.Toml

open Decimal (Stops stops_cons)

/-- A text does not go on with a quote. -/
abbrev Unquoted (rest : List Char) : Prop := Stops (fun c => c == '"' || c == '\'') rest

@[simp] theorem textCons_nil : textCons [] = id := rfl

/-! ## Escapes -/

theorem hexValue?_hexDigit : ∀ n < 16, Json.Document.hexValue? (hexDigit n) = some n := by decide

/-- An escape is a single letter that means the character, or spells its number. -/
theorem escape?_cases {c : Char} {e : List Char} (h : escape? c = some e) :
    (∃ x, escaped? x = some c ∧ e = ['\\', x]) ∨
      c.toNat < 0x80 ∧
        e = ['\\', 'u', '0', '0', hexDigit (c.toNat / 16), hexDigit (c.toNat % 16)] := by
  unfold escape? at h
  split at h
  next hc => exact .inl ⟨'b', by rw [hc]; rfl, (Option.some.inj h).symm⟩
  split at h
  next hc => exact .inl ⟨'t', by rw [hc]; rfl, (Option.some.inj h).symm⟩
  split at h
  next hc => exact .inl ⟨'f', by rw [hc]; rfl, (Option.some.inj h).symm⟩
  split at h
  next hc => exact .inl ⟨'r', by rw [hc]; rfl, (Option.some.inj h).symm⟩
  split at h
  next hc => exact .inl ⟨'\\', by rw [hc]; rfl, (Option.some.inj h).symm⟩
  split at h
  next hneeds =>
    refine .inr ⟨?_, (Option.some.inj h).symm⟩
    have hcontrol := (Bool.and_eq_true_iff.mp hneeds).2
    simp only [isControl, Bool.or_eq_true, Bool.and_eq_true, decide_eq_true_eq, beq_iff_eq]
      at hcontrol
    omega
  next => cases h

/-- An escape begins with a backslash. -/
theorem exists_of_escape? {c : Char} {e : List Char} (h : escape? c = some e) :
    ∃ more, e = '\\' :: more := by
  rcases escape?_cases h with ⟨x, -, rfl⟩ | ⟨-, rfl⟩
  · exact ⟨_, rfl⟩
  · exact ⟨_, rfl⟩

/-- A character without an escape is no backslash, and no control character but a line feed. -/
theorem plain_of_escape? {c : Char} (h : escape? c = none) :
    c ≠ '\\' ∧ (c = '\n' ∨ isControl c = false) := by
  unfold escape? at h
  split at h
  next => cases h
  split at h
  next => cases h
  split at h
  next => cases h
  split at h
  next => cases h
  split at h
  next => cases h
  next hslash =>
    split at h
    next => cases h
    next hneeds =>
      refine ⟨hslash, ?_⟩
      by_cases hline : c = '\n'
      · exact .inl hline
      · right
        simpa [needsEscape, hline] using hneeds

/-- The numbers of the characters that are spelled are those of characters. -/
theorem ofNat_spelled {c : Char} (h : c.toNat < 0x80) :
    (c.toNat / 16 * 16 + c.toNat % 16).isValidChar ∧
      Char.ofNat (c.toNat / 16 * 16 + c.toNat % 16) = c := by
  rw [Nat.div_add_mod']
  exact ⟨.inl (by omega), Char.ofNat_toNat c⟩

/-! ## Between double quotes -/

theorem readBasic?_plain {c : Char} (hquote : c ≠ '"') (hslash : c ≠ '\\')
    (hcontrol : isControl c = false) (rest : List Char) :
    readBasic? .plain (c :: rest) = (readBasic? .plain rest).map (textCons [c]) := by
  simp [readBasic?, Mode.next?, hquote, hslash, hcontrol]

theorem readBasic?_letter {x c : Char} (hx : escaped? x = some c) (rest : List Char) :
    readBasic? .plain ('\\' :: x :: rest) = (readBasic? .plain rest).map (textCons [c]) := by
  have hu : x ≠ 'u' := by
    rintro rfl
    cases hx
  have hU : x ≠ 'U' := by
    rintro rfl
    cases hx
  simp [readBasic?, Mode.next?, Mode.isOpen, hx, hu, hU]

theorem readBasic?_code {c : Char} (hc : c.toNat < 0x80) (rest : List Char) :
    readBasic? .plain ('\\' :: 'u' :: '0' :: '0' :: hexDigit (c.toNat / 16) ::
      hexDigit (c.toNat % 16) :: rest) = (readBasic? .plain rest).map (textCons [c]) := by
  have hhigh := hexValue?_hexDigit (c.toNat / 16) (by omega)
  have hlow := hexValue?_hexDigit (c.toNat % 16) (by omega)
  have hzero : Json.Document.hexValue? '0' = some 0 := rfl
  simp [readBasic?, Mode.next?, Mode.isOpen, hhigh, hlow, hzero, ofNat_spelled hc]

theorem readBasic?_escape {c : Char} {e : List Char} (h : escape? c = some e) (rest : List Char) :
    readBasic? .plain (e ++ rest) = (readBasic? .plain rest).map (textCons [c]) := by
  rcases escape?_cases h with ⟨x, hx, rfl⟩ | ⟨hc, rfl⟩
  · exact readBasic?_letter hx rest
  · exact readBasic?_code hc rest

/-- Every text can stand between double quotes. -/
theorem readBasic?_basicBefore (cs rest : List Char) :
    readBasic? .plain (basicBefore cs ('"' :: rest)) = some (cs, rest) := by
  induction cs with
  | nil => simp [basicBefore, readBasic?, Mode.isOpen]
  | cons c cs ih =>
    rw [basicBefore]
    split
    next hquote => rw [hquote, readBasic?_letter rfl, ih]; rfl
    split
    next hline => rw [hline, readBasic?_letter rfl, ih]; rfl
    next hquote hline =>
      split
      next e he => rw [readBasic?_escape he, ih]; rfl
      next he =>
        obtain ⟨hslash, hcontrol⟩ := plain_of_escape? he
        rw [readBasic?_plain hquote hslash (hcontrol.resolve_left hline), ih]
        rfl

/-! ## Runs of quotes -/

section Quotes

variable {quote c : Char} {k : Nat} (hk : k ≤ 2)

theorem closing?_of_ne (hc : c ≠ quote) (rest : List Char) :
    closing? quote (c :: rest) = none := by
  unfold closing?
  split
  next h =>
    cases h
    exact if_neg fun h => hc h.1
  next => rfl

include hk

/-- Two quotes are not enough to end a literal. -/
theorem closing?_quotes (hc : c ≠ quote) (rest : List Char) :
    closing? quote (List.replicate k quote ++ c :: rest) = none := by
  obtain rfl | rfl | rfl : k = 0 ∨ k = 1 ∨ k = 2 := by omega
  · exact closing?_of_ne hc rest
  · cases rest <;> simp [closing?, List.replicate, hc]
  · simp [closing?, List.replicate, hc]

/-- Quotes in front of the three at the end belong to the text. -/
theorem closing?_end {rest : List Char} (hrest : Stops (· == quote) rest) :
    closing? quote (List.replicate k quote ++ quote :: quote :: quote :: rest) =
      some (List.replicate k quote, rest) := by
  obtain rfl | rfl | rfl : k = 0 ∨ k = 1 ∨ k = 2 := by omega
  · match rest, hrest with
    | [], _ => simp [closing?]
    | [d], h => simpa [closing?] using stops_cons.mp h
    | d :: e :: rest, h =>
      have hd : d ≠ quote := by simpa using stops_cons.mp h
      simp [closing?, hd]
  · cases rest with
    | nil => simp [closing?, List.replicate]
    | cons d rest =>
      have hd : d ≠ quote := by simpa using stops_cons.mp hrest
      simp [closing?, List.replicate, hd]
  · simp [closing?, List.replicate]

end Quotes

/-! ## Between three double quotes -/

theorem readLongBasic?_step {m m' : Mode} {c : Char} {out rest : List Char}
    (hclose : m.isOpen = true → closing? '"' (c :: rest) = none) (hreturn : c ≠ '\r')
    (h : m.nextLong? c = some (m', out)) :
    readLongBasic? m (c :: rest) = (readLongBasic? m' rest).map (textCons out) := by
  have hopen : (if m.isOpen = true then closing? '"' (c :: rest) else none) = none := by
    split
    next hm => exact hclose hm
    next => rfl
  rw [readLongBasic?.eq_def]
  simp only [hopen]
  split
  next hreturn' => exact absurd rfl hreturn
  next => simp only [h]

theorem readLongBasic?_end {k : Nat} (hk : k ≤ 2) {rest : List Char}
    (hrest : Stops (· == '"') rest) :
    readLongBasic? .plain (List.replicate k '"' ++ '"' :: '"' :: '"' :: rest) =
      some (List.replicate k '"', rest) := by
  have hclose := closing?_end hk hrest
  cases hcs : List.replicate k '"' ++ '"' :: '"' :: '"' :: rest with
  | nil => simp at hcs
  | cons c cs =>
    rw [hcs] at hclose
    rw [readLongBasic?.eq_def]
    simp only [Mode.isOpen, if_true, hclose]

theorem readLongBasic?_plain {c : Char} (hquote : c ≠ '"') (hslash : c ≠ '\\')
    (hcontrol : c = '\n' ∨ isControl c = false) (rest : List Char) :
    readLongBasic? .plain (c :: rest) = (readLongBasic? .plain rest).map (textCons [c]) := by
  refine readLongBasic?_step (fun _ => closing?_of_ne hquote rest) ?_ ?_
  · rintro rfl
    rcases hcontrol with h | h <;> cases h
  · rcases hcontrol with rfl | hcontrol
    · rfl
    · have hline : c ≠ '\n' := by
        rintro rfl
        cases hcontrol
      simp [Mode.nextLong?, Mode.next?, hslash, hcontrol, hline]

theorem readLongBasic?_slash (rest : List Char) :
    readLongBasic? .plain ('\\' :: rest) = readLongBasic? .escape rest := by
  rw [readLongBasic?_step (fun _ => closing?_of_ne (by decide) rest) (by decide)
    (show Mode.plain.nextLong? '\\' = some (.escape, []) from rfl), textCons_nil, Option.map_id, id]

theorem readLongBasic?_letter {x c : Char} (hx : escaped? x = some c) (rest : List Char) :
    readLongBasic? .plain ('\\' :: x :: rest) =
      (readLongBasic? .plain rest).map (textCons [c]) := by
  have hletter : Mode.escape.nextLong? x = some (.plain, [c]) := by
    unfold escaped? at hx
    split at hx <;> cases hx <;> rfl
  rw [readLongBasic?_slash, readLongBasic?_step (fun h => absurd h (by decide)) _ hletter]
  rintro rfl
  cases hx

theorem readLongBasic?_digit {missing read d : Nat} {x : Char}
    (hx : Json.Document.hexValue? x = some d) {m : Mode} {out : List Char}
    (h : (Mode.code missing read).next? x = some (m, out)) (rest : List Char) :
    readLongBasic? (.code missing read) (x :: rest) =
      (readLongBasic? m rest).map (textCons out) := by
  refine readLongBasic?_step (fun h => absurd h (Bool.false_ne_true)) ?_ h
  rintro rfl
  cases hx

theorem readLongBasic?_code {c : Char} (hc : c.toNat < 0x80) (rest : List Char) :
    readLongBasic? .plain ('\\' :: 'u' :: '0' :: '0' :: hexDigit (c.toNat / 16) ::
      hexDigit (c.toNat % 16) :: rest) = (readLongBasic? .plain rest).map (textCons [c]) := by
  have hhigh := hexValue?_hexDigit (c.toNat / 16) (by omega)
  have hlow := hexValue?_hexDigit (c.toNat % 16) (by omega)
  have hzero : Json.Document.hexValue? '0' = some 0 := rfl
  have hfirst : Mode.escape.nextLong? 'u' = some (.code 3 0, []) := rfl
  have hnext (missing : Nat) : (Mode.code (missing + 1) 0).next? '0' = some (.code missing 0, []) :=
    rfl
  have hthird : (Mode.code 1 0).next? (hexDigit (c.toNat / 16)) =
      some (.code 0 (c.toNat / 16), []) := by
    simp [Mode.next?, hhigh]
  have hlast : (Mode.code 0 (c.toNat / 16)).next? (hexDigit (c.toNat % 16)) =
      some (.plain, [c]) := by
    simp [Mode.next?, hlow, ofNat_spelled hc]
  rw [readLongBasic?_slash, readLongBasic?_step (fun h => absurd h (by decide)) (by decide) hfirst,
    readLongBasic?_digit hzero (hnext 2), readLongBasic?_digit hzero (hnext 1),
    readLongBasic?_digit hhigh hthird, readLongBasic?_digit hlow hlast]
  simp only [textCons_nil, Option.map_id, id]

theorem readLongBasic?_escape {c : Char} {e : List Char} (h : escape? c = some e)
    (rest : List Char) :
    readLongBasic? .plain (e ++ rest) = (readLongBasic? .plain rest).map (textCons [c]) := by
  rcases escape?_cases h with ⟨x, hx, rfl⟩ | ⟨hc, rfl⟩
  · exact readLongBasic?_letter hx rest
  · exact readLongBasic?_code hc rest

/-- Two quotes that do not end the literal belong to the text. -/
theorem readLongBasic?_quotes {k : Nat} (hk : k ≤ 2) {c : Char} (hc : c ≠ '"')
    (rest : List Char) :
    readLongBasic? .plain (List.replicate k '"' ++ c :: rest) =
      (readLongBasic? .plain (c :: rest)).map (textCons (List.replicate k '"')) := by
  induction k with
  | zero => rw [List.replicate_zero, List.nil_append, textCons_nil, Option.map_id, id]
  | succ k ih =>
    have hclose := closing?_quotes hk hc rest
    rw [List.replicate_succ, List.cons_append] at hclose ⊢
    have hquote : Mode.plain.nextLong? '"' = some (.plain, ['"']) := rfl
    rw [readLongBasic?_step (fun _ => hclose) (by decide) hquote, ih (by omega), Option.map_map]
    rfl

/-- Every text can stand between three double quotes. The quotes that have been written right before
belong to what is read, since the reader looks at a run of quotes as a whole. -/
theorem readLongBasic?_longBasicBefore {run : Nat} (hrun : run ≤ 2) (cs : List Char)
    {rest : List Char} (hrest : Stops (· == '"') rest) :
    readLongBasic? .plain
        (List.replicate run '"' ++ longBasicBefore run cs ('"' :: '"' :: '"' :: rest)) =
      some (List.replicate run '"' ++ cs, rest) := by
  induction cs generalizing run with
  | nil => rw [longBasicBefore, List.append_nil, readLongBasic?_end hrun hrest]
  | cons c cs ih =>
    have ih_zero := ih (Nat.zero_le 2)
    rw [List.replicate_zero, List.nil_append, List.nil_append] at ih_zero
    rw [longBasicBefore]
    split
    next hquote =>
      subst hquote
      split
      next hfew =>
        have hmore : ∀ cs, List.replicate run '"' ++ '"' :: cs =
            List.replicate (run + 1) '"' ++ cs := by
          intro cs
          rw [List.replicate_succ', List.append_assoc, List.singleton_append]
        rw [hmore, hmore, ih (by omega)]
      next =>
        rw [readLongBasic?_quotes hrun (by decide), readLongBasic?_letter rfl, ih_zero]
        rfl
    next hquote =>
      split
      next e he =>
        obtain ⟨more, hmore⟩ := exists_of_escape? he
        have hread := readLongBasic?_escape he (longBasicBefore 0 cs ('"' :: '"' :: '"' :: rest))
        rw [hmore, List.cons_append] at hread ⊢
        rw [readLongBasic?_quotes hrun (by decide), hread, ih_zero]
        rfl
      next he =>
        obtain ⟨hslash, hcontrol⟩ := plain_of_escape? he
        rw [readLongBasic?_quotes hrun hquote, readLongBasic?_plain hquote hslash hcontrol,
          ih_zero]
        rfl

/-! ## Between single quotes -/

/-- A text without single quotes and control characters can stand between single quotes. -/
theorem readLiteral?_append {cs : List Char} (hquote : '\'' ∉ cs)
    (hcontrol : ∀ c ∈ cs, isControl c = false) (rest : List Char) :
    readLiteral? (cs ++ '\'' :: rest) = some (cs, rest) := by
  induction cs with
  | nil => simp [readLiteral?]
  | cons c cs ih =>
    obtain ⟨hc, hcs⟩ := not_or.mp (mt List.mem_cons.mpr hquote)
    obtain ⟨hplain, hall⟩ := List.forall_mem_cons.mp hcontrol
    rw [List.cons_append, readLiteral?, if_neg (Ne.symm hc), hplain, ih hcs hall]
    rfl

theorem readLongLiteral?_step {c : Char} {rest : List Char}
    (hclose : closing? '\'' (c :: rest) = none) (hcontrol : c = '\n' ∨ isControl c = false) :
    readLongLiteral? (c :: rest) = (readLongLiteral? rest).map (textCons [c]) := by
  have hreturn : c ≠ '\r' := by
    rintro rfl
    rcases hcontrol with h | h <;> cases h
  have hplain : ¬ (c ≠ '\n' ∧ isControl c = true) := by
    rintro ⟨hline, hc⟩
    rw [hcontrol.resolve_left hline] at hc
    cases hc
  rw [readLongLiteral?.eq_def]
  simp only [hclose]
  split
  next => exact absurd rfl hreturn
  next => rw [if_neg hplain]

theorem readLongLiteral?_end {k : Nat} (hk : k ≤ 2) {rest : List Char}
    (hrest : Stops (· == '\'') rest) :
    readLongLiteral? (List.replicate k '\'' ++ '\'' :: '\'' :: '\'' :: rest) =
      some (List.replicate k '\'', rest) := by
  have hclose := closing?_end hk hrest
  cases hcs : List.replicate k '\'' ++ '\'' :: '\'' :: '\'' :: rest with
  | nil => simp at hcs
  | cons c cs =>
    rw [hcs] at hclose
    rw [readLongLiteral?.eq_def]
    simp only [hclose]

theorem readLongLiteral?_quotes {k : Nat} (hk : k ≤ 2) {c : Char} (hc : c ≠ '\'')
    (rest : List Char) :
    readLongLiteral? (List.replicate k '\'' ++ c :: rest) =
      (readLongLiteral? (c :: rest)).map (textCons (List.replicate k '\'')) := by
  induction k with
  | zero => rw [List.replicate_zero, List.nil_append, textCons_nil, Option.map_id, id]
  | succ k ih =>
    have hclose := closing?_quotes hk hc rest
    rw [List.replicate_succ, List.cons_append] at hclose ⊢
    rw [readLongLiteral?_step hclose (.inr rfl), ih (by omega), Option.map_map]
    rfl

/-- No run is longer than the longest one. -/
theorem max_le_longestRunAfter (quote : Char) (run longest : Nat) (cs : List Char) :
    max run longest ≤ longestRunAfter quote run longest cs := by
  induction cs generalizing run longest with
  | nil => exact Nat.le_refl _
  | cons c cs ih =>
    rw [longestRunAfter]
    split
    next =>
      have := ih (run + 1) longest
      omega
    next =>
      have := ih 0 (max run longest)
      omega

/-- A text without control characters and with no more than two single quotes in a row can stand
between three of them. -/
theorem readLongLiteral?_append {run longest : Nat} {cs : List Char}
    (hlongest : longestRunAfter '\'' run longest cs ≤ 2)
    (hcontrol : ∀ c ∈ cs, c = '\n' ∨ isControl c = false) {rest : List Char}
    (hrest : Stops (· == '\'') rest) :
    readLongLiteral? (List.replicate run '\'' ++ (cs ++ '\'' :: '\'' :: '\'' :: rest)) =
      some (List.replicate run '\'' ++ cs, rest) := by
  have hrun : run ≤ 2 := by
    have := max_le_longestRunAfter '\'' run longest cs
    omega
  induction cs generalizing run longest with
  | nil => rw [List.nil_append, List.append_nil, readLongLiteral?_end hrun hrest]
  | cons c cs ih =>
    obtain ⟨hplain, hall⟩ := List.forall_mem_cons.mp hcontrol
    rw [longestRunAfter] at hlongest
    split at hlongest
    next hquote =>
      have hmore : ∀ cs, List.replicate run '\'' ++ c :: cs =
          List.replicate (run + 1) '\'' ++ cs := by
        intro cs
        rw [hquote, List.replicate_succ', List.append_assoc, List.singleton_append]
      have hnext : run + 1 ≤ 2 := by
        have := max_le_longestRunAfter '\'' (run + 1) longest cs
        omega
      rw [List.cons_append, hmore, hmore, ih hlongest hall hnext]
    next hquote =>
      have hrest := ih hlongest hall (Nat.zero_le 2)
      rw [List.replicate_zero, List.nil_append, List.nil_append] at hrest
      rw [List.cons_append, readLongLiteral?_quotes hrun hquote,
        readLongLiteral?_step (closing?_of_ne hquote _) hplain, hrest]
      rfl

/-! ## The style of a text -/

/-- What a style asks of a text. -/
def Style.Holds (cs : List Char) : Style → Prop
  | basic => True
  | literal => '\'' ∉ cs ∧ ∀ c ∈ cs, isControl c = false
  | longBasic => True
  | longLiteral => longestRun '\'' cs ≤ 2 ∧ ∀ c ∈ cs, c = '\n' ∨ isControl c = false

/-- **A text is written in a style that can hold it.** -/
theorem Style.holds_of (cs : List Char) : (Style.of cs).Holds cs := by
  have hplain (h : cs.any needsEscape = false) : ∀ c ∈ cs, c = '\n' ∨ isControl c = false := by
    intro c hc
    have hneeds : needsEscape c = false := by simpa using List.any_eq_false.mp h c hc
    by_cases hline : c = '\n'
    · exact .inl hline
    · exact .inr (by simpa [needsEscape, hline] using hneeds)
  dsimp only [Style.of]
  split
  next => trivial
  split
  next h =>
    simp only [Bool.and_eq_true, Bool.not_eq_true', List.contains_eq_mem, decide_eq_false_iff_not]
      at h
    obtain ⟨⟨hcontrols, hlines⟩, hquote⟩ := h
    refine ⟨hquote, fun c hc => (hplain hcontrols c hc).resolve_left ?_⟩
    rintro rfl
    exact hlines hc
  split
  next => trivial
  split
  next h =>
    simp only [Bool.and_eq_true, Bool.not_eq_true', decide_eq_true_eq] at h
    exact ⟨h.2, hplain h.1⟩
  split
  next => trivial
  next => trivial

/-! ## All styles -/

theorem readText?_eq_readShort? {quote : Char} {cs : List Char}
    (h : ∀ rest, cs ≠ quote :: quote :: rest) :
    readText? (quote :: cs) = readShort? (quote :: cs) := by
  unfold readText?
  split
  next heq =>
    cases heq
    exact absurd rfl (h _)
  next heq =>
    cases heq
    exact absurd rfl (h _)
  next => rfl

theorem ne_cons_cons_of_stops {quote : Char} {rest : List Char} (hrest : Stops (· == quote) rest)
    (more : List Char) : quote :: rest ≠ quote :: quote :: more := by
  rintro heq
  obtain rfl := (List.cons.inj heq).2
  simpa using stops_cons.mp hrest

theorem dropNewline_of_stops {cs : List Char} (h : Stops isControl cs) : dropNewline cs = cs := by
  unfold dropNewline afterNewline?
  split
  next => cases stops_cons.mp h
  next => cases stops_cons.mp h
  next => rfl

/-- Behind the opening quotes of a literal of several lines the text begins, whether or not a line
break has been put in front. -/
theorem dropNewline_opening (quote : Char) {cs body : List Char}
    (hbody : '\n' ∉ cs → Stops isControl body) :
    ∃ more, opening quote cs body = quote :: quote :: quote :: more ∧ dropNewline more = body := by
  unfold opening
  split
  next => exact ⟨_, rfl, rfl⟩
  next hlines =>
    exact ⟨_, rfl, dropNewline_of_stops (hbody fun h => hlines (by simpa using h))⟩

/-- What stands between double quotes does not begin with one. -/
theorem head_basicBefore (c : Char) (cs rest : List Char) :
    ∃ d more, basicBefore (c :: cs) rest = d :: more ∧ d ≠ '"' := by
  rw [basicBefore]
  split
  next => exact ⟨_, _, rfl, by decide⟩
  next hquote =>
    split
    next => exact ⟨_, _, rfl, by decide⟩
    split
    next e he =>
      obtain ⟨more, rfl⟩ := exists_of_escape? he
      exact ⟨_, _, rfl, by decide⟩
    next => exact ⟨_, _, rfl, hquote⟩

theorem stops_longBasicBefore {cs : List Char} (hlines : '\n' ∉ cs) (rest : List Char) :
    Stops isControl (longBasicBefore 0 cs ('"' :: rest)) := by
  cases cs with
  | nil => exact stops_cons.mpr rfl
  | cons c cs =>
    have hline : c ≠ '\n' := fun h => hlines (h ▸ List.mem_cons_self)
    rw [longBasicBefore]
    split
    next => exact stops_cons.mpr rfl
    split
    next e he =>
      obtain ⟨more, rfl⟩ := exists_of_escape? he
      exact stops_cons.mpr rfl
    next he => exact stops_cons.mpr ((plain_of_escape? he).2.resolve_left hline)

/-- **A text is read back from its literal**, in front of any text that does not go on with a
quote. -/
theorem readText?_literalBefore (cs : List Char) {rest : List Char} (hrest : Unquoted rest) :
    readText? (literalBefore cs rest) = some (cs, rest) := by
  have hdouble : Stops (· == '"') rest := fun c hc => (Bool.or_eq_false_iff.mp (hrest c hc)).1
  have hsingle : Stops (· == '\'') rest := fun c hc => (Bool.or_eq_false_iff.mp (hrest c hc)).2
  have hholds := Style.holds_of cs
  unfold literalBefore
  cases hstyle : Style.of cs with
  | basic =>
    have hshort : ∀ more, basicBefore cs ('"' :: rest) ≠ '"' :: '"' :: more := by
      cases cs with
      | nil => exact ne_cons_cons_of_stops hdouble
      | cons c cs =>
        obtain ⟨d, more, heq, hd⟩ := head_basicBefore c cs ('"' :: rest)
        intro more' heq'
        exact hd (List.cons.inj (heq.symm.trans heq')).1
    simp only
    rw [readText?_eq_readShort? hshort, readShort?, readBasic?_basicBefore]
  | literal =>
    rw [hstyle] at hholds
    obtain ⟨hquote, hcontrol⟩ := hholds
    have hshort : ∀ more, cs ++ '\'' :: rest ≠ '\'' :: '\'' :: more := by
      cases cs with
      | nil => exact ne_cons_cons_of_stops hsingle
      | cons c cs =>
        rintro more heq
        exact hquote ((List.cons.inj heq).1 ▸ List.mem_cons_self)
    simp only
    rw [readText?_eq_readShort? hshort, readShort?, readLiteral?_append hquote hcontrol]
  | longBasic =>
    have hbody : '\n' ∉ cs → Stops isControl (longBasicBefore 0 cs ('"' :: '"' :: '"' :: rest)) :=
      fun hlines => stops_longBasicBefore hlines _
    obtain ⟨more, hopening, hmore⟩ := dropNewline_opening '"' hbody
    simp only
    rw [hopening, readText?, hmore]
    exact readLongBasic?_longBasicBefore (Nat.zero_le 2) cs hdouble
  | longLiteral =>
    rw [hstyle] at hholds
    obtain ⟨hlongest, hcontrol⟩ := hholds
    have hbody : '\n' ∉ cs → Stops isControl (cs ++ '\'' :: '\'' :: '\'' :: rest) := by
      intro hlines
      cases cs with
      | nil => exact stops_cons.mpr rfl
      | cons c cs =>
        refine stops_cons.mpr ((hcontrol c List.mem_cons_self).resolve_left ?_)
        rintro rfl
        exact hlines List.mem_cons_self
    obtain ⟨more, hopening, hmore⟩ := dropNewline_opening '\'' hbody
    simp only
    rw [hopening, readText?, hmore]
    exact readLongLiteral?_append hlongest hcontrol hsingle

/-! ## Literals in front of other texts -/

theorem basicBefore_append (cs rest more : List Char) :
    basicBefore cs (rest ++ more) = basicBefore cs rest ++ more := by
  induction cs with
  | nil => rfl
  | cons c cs ih =>
    simp only [basicBefore, ih]
    split
    next => rfl
    split
    next => rfl
    split
    next => rw [List.append_assoc]
    next => rfl

theorem longBasicBefore_append (run : Nat) (cs rest more : List Char) :
    longBasicBefore run cs (rest ++ more) = longBasicBefore run cs rest ++ more := by
  induction cs generalizing run with
  | nil => rfl
  | cons c cs ih =>
    simp only [longBasicBefore, ih]
    split
    next => split <;> rfl
    split
    next => rw [List.append_assoc]
    next => rfl

theorem opening_append (quote : Char) (cs rest more : List Char) :
    opening quote cs (rest ++ more) = opening quote cs rest ++ more := by
  unfold opening
  split <;> rfl

/-- What follows a literal has no part in it. -/
theorem literalBefore_append (cs rest : List Char) :
    literalBefore cs rest = literalBefore cs [] ++ rest := by
  unfold literalBefore
  split
  next =>
    rw [List.cons_append, ← basicBefore_append]
    rfl
  next => rw [List.cons_append, List.append_assoc]; rfl
  next =>
    rw [← opening_append, ← longBasicBefore_append]
    rfl
  next =>
    rw [← opening_append, List.append_assoc]
    rfl

/-- A literal begins with a quote. -/
theorem exists_literalBefore_eq (cs rest : List Char) :
    ∃ quote more, literalBefore cs rest = quote :: more ∧ (quote = '"' ∨ quote = '\'') := by
  unfold literalBefore
  split
  next => exact ⟨_, _, rfl, .inl rfl⟩
  next => exact ⟨_, _, rfl, .inr rfl⟩
  next => unfold opening; split <;> exact ⟨_, _, rfl, .inl rfl⟩
  next => unfold opening; split <;> exact ⟨_, _, rfl, .inr rfl⟩

end Downline.Toml
