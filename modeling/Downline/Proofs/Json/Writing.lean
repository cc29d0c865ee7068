import Downline.Json.Writer
import Downline.Proofs.Json.Reading
import Mathlib.Data.List.Forall2

/-!
# What is written is read back

`Written v d` says that the compact form of the value `v` is a text that is read as the document
`d`, wherever it stands. Like reading, it follows the structure of values: a list is written as a
list of documents if its items are written as these, and an object likewise. What a codec writes can
so be traced to the document that the codec gets to see again (`ofString?_compact`).

Every text comes back (`readString?_textBefore`): whatever is escaped is spelled so that it denotes
the same character.
-/

namespace Downline.Json

open Document

/-! ## Texts -/

theorem hexUnit?_hexDigit :
    ∀ n < 0x20, hexUnit? '0' '0' (hexDigit (n / 16)) (hexDigit (n % 16)) = some n := by decide

/-- A unit that is no surrogate denotes the character with its number. -/
theorem joined?_control {u : Nat} (h : u < 0x20) (ps : List Piece) :
    joined? (.unit u :: ps) = (joined? ps).map (Char.ofNat u :: ·) := by
  have hhigh : isHighSurrogate u = false := by
    rw [isHighSurrogate, Bool.and_eq_false_iff, decide_eq_false_iff_not]
    exact .inl (by omega)
  have hlow : isLowSurrogate u = false := by
    rw [isLowSurrogate, Bool.and_eq_false_iff, decide_eq_false_iff_not]
    exact .inl (by omega)
  rw [joined?.eq_def]
  simp only [hhigh, hlow, Bool.false_eq_true, if_false]

/-- A character stands in a string literal as a letter behind a backslash, as its number, or as
itself. -/
theorem escapedChar_cases (c : Char) :
    (∃ e, escaped? e = some c ∧ escapedChar c = ['\\', e]) ∨
      (c.toNat < 0x20 ∧ escapedChar c =
        ['\\', 'u', '0', '0', hexDigit (c.toNat / 16), hexDigit (c.toNat % 16)]) ∨
      (c ≠ '"' ∧ c ≠ '\\' ∧ ¬ c.toNat < 0x20) ∧ escapedChar c = [c] := by
  unfold escapedChar
  split
  next h => exact .inl ⟨'"', by rw [h]; rfl, rfl⟩
  split
  next h => exact .inl ⟨'\\', by rw [h]; rfl, rfl⟩
  split
  next h => exact .inl ⟨'b', by rw [h]; rfl, rfl⟩
  split
  next h => exact .inl ⟨'f', by rw [h]; rfl, rfl⟩
  split
  next h => exact .inl ⟨'n', by rw [h]; rfl, rfl⟩
  split
  next h => exact .inl ⟨'r', by rw [h]; rfl, rfl⟩
  split
  next h => exact .inl ⟨'t', by rw [h]; rfl, rfl⟩
  split
  next hcontrol => exact .inr (.inl ⟨hcontrol, rfl⟩)
  next hquote hslash _ _ _ _ _ hcontrol => exact .inr (.inr ⟨⟨hquote, hslash, hcontrol⟩, rfl⟩)

/-- A character as it stands in a string literal is read as one piece, which denotes it. -/
theorem exists_piece (c : Char) :
    ∃ piece, (∀ ps, joined? (piece :: ps) = (joined? ps).map (c :: ·)) ∧
      ∀ rest, readPieces? (escapedChar c ++ rest) =
        (readPieces? rest).map (pieceCons piece) := by
  have char : ∀ ps, joined? (.char c :: ps) = (joined? ps).map (c :: ·) := fun ps => by rw [joined?]
  rcases escapedChar_cases c with
    ⟨e, he, hc⟩ | ⟨hcontrol, hc⟩ | ⟨⟨hquote, hslash, hcontrol⟩, hc⟩ <;> rw [hc]
  · exact ⟨_, char, readPieces?_escape he⟩
  · refine ⟨.unit c.toNat, fun ps => ?_, readPieces?_unit (hexUnit?_hexDigit _ hcontrol)⟩
    rw [joined?_control hcontrol, Char.ofNat_toNat]
  · exact ⟨_, char, readPieces?_char hquote hslash hcontrol⟩

/-- Every text is read back in front of any other text. -/
theorem readString?_textBefore (s : String) (rest : List Char) :
    readString? (textBefore s.toList rest) = some (some s, rest) := by
  have pieces : ∀ cs, ∃ ps, readPieces? (textBefore cs rest) = some (ps, rest) ∧
      joined? ps = some cs := by
    intro cs
    induction cs with
    | nil => exact ⟨[], by rw [textBefore, readPieces?], rfl⟩
    | cons c cs ih =>
      obtain ⟨ps, hread, hjoined⟩ := ih
      obtain ⟨piece, hpiece, hc⟩ := exists_piece c
      refine ⟨piece :: ps, ?_, by rw [hpiece, hjoined, Option.map_some]⟩
      rw [textBefore, hc, hread]
      rfl
  obtain ⟨ps, hread, hjoined⟩ := pieces s.toList
  simp only [readString?, hread, hjoined, Option.map_some, String.ofList_toList]

theorem textBefore_append (cs rest : List Char) :
    textBefore cs rest = textBefore cs [] ++ rest := by
  induction cs with
  | nil => rfl
  | cons c cs ih => rw [textBefore, textBefore, ih, List.append_assoc]

theorem readString?_key (k : String) (rest : List Char) :
    readString? (textBefore k.toList [] ++ rest) = some (some k, rest) := by
  rw [← textBefore_append, readString?_textBefore]

/-! ## Values -/

/-- The compact form of a value is a text that is read as a document. -/
def Written (v : Value) (d : Document) : Prop :=
  ∃ p, (∀ rest, v.compactBefore rest = p ++ rest) ∧ Reads p d

namespace Written

theorem text (s : String) : Written (.text s) (.text (some s)) := by
  refine ⟨'"' :: textBefore s.toList [], fun rest => ?_, reads_text (readString?_key s)⟩
  rw [Value.compactBefore, stringBefore, textBefore_append]
  rfl

theorem ofUInt64 (n : UInt64) : Written (.ofUInt64 n) (.number (.ofNat n.toNat)) := by
  obtain ⟨c, cs, hcs⟩ := List.exists_cons_of_ne_nil (Decimal.Digits.ofNat_ne_nil n.toNat)
  have hc : opensNumeral c = true := by
    rw [opensNumeral, Decimal.Digits.isDigit_of_mem_ofNat n.toNat c (hcs ▸ List.mem_cons_self),
      Bool.true_or]
  refine ⟨c :: cs, fun rest => ?_, reads_numeral hc fun rest hrest => ?_⟩
  · rw [Value.ofUInt64, Value.compactBefore, Number.chars, hcs]
  · rw [← hcs, readNumeral?_ofNat _ hrest]

/-- The items of a list that is not empty. -/
theorem exists_items {v : Value} {vs : List Value} {d : Document} {ds : List Document}
    (h : Written v d) (hs : List.Forall₂ Written vs ds) :
    ∃ p, (∀ rest, Value.compactItems (v :: vs) rest = p ++ rest) ∧ ReadsItems p (d :: ds) := by
  induction hs generalizing v d with
  | nil =>
    obtain ⟨p, hp, hread⟩ := h
    exact ⟨p, fun rest => by rw [Value.compactItems, hp], readsItems_last hread.unpadded⟩
  | cons hw _ ih =>
    obtain ⟨p, hp, hread⟩ := h
    obtain ⟨q, hq, hitems⟩ := ih hw
    refine ⟨p ++ ',' :: q, fun rest => ?_, readsItems_cons hread.unpadded hitems⟩
    rw [Value.compactItems, hp, hq, List.append_assoc, List.cons_append]

theorem list {vs : List Value} {ds : List Document} (h : List.Forall₂ Written vs ds) :
    Written (.list vs) (.list ds) := by
  cases h with
  | nil => exact ⟨_, fun rest => by rw [Value.compactBefore]; rfl, reads_list_nil blanks_nil⟩
  | cons hv hs =>
    obtain ⟨p, hp, hread⟩ := exists_items hv hs
    refine ⟨_, fun rest => ?_, reads_list hread⟩
    rw [Value.compactBefore, hp, List.cons_append, List.append_assoc]
    rfl

/-- An entry is written under its own key. -/
def Entry (e : String × Value) (f : Option String × Document) : Prop :=
  f.1 = some e.1 ∧ Written e.2 f.2

/-- The entries of an object that is not empty. -/
theorem exists_entries {e : String × Value} {es : Entries} {f : Option String × Document}
    {fs : List (Option String × Document)} (h : Entry e f) (hs : List.Forall₂ Entry es fs) :
    ∃ p, (∀ rest, Value.compactEntries (e :: es) rest = p ++ rest) ∧ ReadsEntries p (f :: fs) := by
  induction hs generalizing e f with
  | nil =>
    obtain ⟨k, v⟩ := e
    obtain ⟨_, d⟩ := f
    obtain ⟨rfl, p, hp, hread⟩ := h
    refine ⟨_, fun rest => ?_,
      readsEntries_last blanks_nil (readString?_key k) blanks_nil hread.unpadded⟩
    rw [Value.compactEntries, stringBefore, textBefore_append, hp]
    simp
  | cons hw _ ih =>
    obtain ⟨k, v⟩ := e
    obtain ⟨_, d⟩ := f
    obtain ⟨rfl, p, hp, hread⟩ := h
    obtain ⟨q, hq, hentries⟩ := ih hw
    refine ⟨_, fun rest => ?_,
      readsEntries_cons blanks_nil (readString?_key k) blanks_nil hread.unpadded hentries⟩
    rw [Value.compactEntries, stringBefore, textBefore_append, hp, hq]
    simp

/-- The text of an object stands between braces. -/
theorem exists_braced {es : Entries} {fs : List (Option String × Document)}
    (h : List.Forall₂ Entry es fs) :
    ∃ q, (∀ rest, (Value.object es).compactBefore rest = '\x7b' :: (q ++ ['\x7d']) ++ rest) ∧
      Reads ('\x7b' :: (q ++ ['\x7d'])) (.object fs) := by
  cases h with
  | nil => exact ⟨[], fun rest => by rw [Value.compactBefore]; rfl, reads_object_nil blanks_nil⟩
  | cons he hs =>
    obtain ⟨q, hq, hread⟩ := exists_entries he hs
    refine ⟨q, fun rest => ?_, reads_object hread⟩
    rw [Value.compactBefore, hq, List.cons_append, List.append_assoc]
    rfl

theorem object {es : Entries} {fs : List (Option String × Document)}
    (h : List.Forall₂ Entry es fs) : Written (.object es) (.object fs) :=
  let ⟨_, hq, hread⟩ := exists_braced h
  ⟨_, hq, hread⟩

end Written

/-- **What has been written is read back**: the text of a value is one document. -/
theorem ofString?_compact {v : Value} {d : Document} (h : Written v d) :
    ofString? v.compact = some d := by
  obtain ⟨p, hp, hread⟩ := h
  rw [Value.compact, ofString?, String.toList_ofList, hp]
  exact ofChars?_of_reads hread blanks_nil

end Downline.Json
