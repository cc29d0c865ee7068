import Downline.Settings.Document
import Downline.Proofs.Toml.Literal
import Mathlib.Data.List.TakeDrop

/-!
# Settings are read back from their document

Settings are written as a document of four lines, each a name, the sign of equality and a text. A
document of such lines is read as its names with their texts, in order (`readDocument?_linesOf`),
whatever the texts are; only the names must be bare and distinct. So the settings come back
(`ofToml?_toToml`): the texts as they were, and the shape of trees by its name.
-/

namespace Downline.Settings

open Toml
open Decimal (Stops stops_cons)

/-! ## One line -/

/-- A name that needs no quotes as a key. -/
def Bare (key : String) : Prop := key ≠ "" ∧ ∀ c ∈ key.toList, isBareChar c = true

instance (key : String) : Decidable (Bare key) :=
  decidable_of_iff (key ≠ "" ∧ key.toList.all isBareChar = true)
    (and_congr_right fun _ => List.all_eq_true)

theorem Bare.exists_cons {key : String} (h : Bare key) :
    ∃ c cs, key.toList = c :: cs ∧ isBareChar c = true := by
  cases hcs : key.toList with
  | nil => exact absurd (String.toList_eq_nil_iff.mp hcs) h.1
  | cons c cs => exact ⟨c, cs, rfl, h.2 c (hcs ▸ List.mem_cons_self)⟩

/-- A line in front of more lines. -/
theorem toList_line (key value : String) (rest : List Char) :
    (line key value).toList ++ rest =
      key.toList ++ ' ' :: '=' :: ' ' :: literalBefore value.toList ('\n' :: rest) := by
  rw [literalBefore_append]
  simp [line, literal]

/-- The first character of a bare name is no blank, ends no line and opens no literal, comment or
header. -/
theorem ne_of_isBareChar {c d : Char} (hc : isBareChar c = true) (hd : isBareChar d = false) :
    c ≠ d := by
  rintro rfl
  cases hc.symm.trans hd

theorem skipBlank_of_not_blank {c : Char} (hc : isBlank c = false) (cs : List Char) :
    skipBlank (c :: cs) = c :: cs :=
  List.dropWhile_cons_of_neg (by rw [hc]; exact Bool.false_ne_true)

theorem isBlank_of_isBareChar {c : Char} (hc : isBareChar c = true) : isBlank c = false := by
  simp [isBlank, ne_of_isBareChar hc (d := ' ') rfl, ne_of_isBareChar hc (d := '\t') rfl]

theorem readName?_bare {key : String} (hkey : Bare key) {d : Char} (hd : isBareChar d = false)
    (rest : List Char) : readName? (key.toList ++ d :: rest) = some (key, d :: rest) := by
  obtain ⟨c, cs, hcs, hc⟩ := hkey.exists_cons
  have hspan : (key.toList ++ d :: rest).span isBareChar = (key.toList, d :: rest) := by
    rw [List.span_eq_takeWhile_dropWhile, List.takeWhile_append_of_pos hkey.2,
      List.dropWhile_append_of_pos hkey.2, List.takeWhile_cons_of_neg (by rw [hd]; simp),
      List.dropWhile_cons_of_neg (by rw [hd]; simp), List.append_nil]
  unfold readName?
  split
  next heq =>
    rw [hcs] at heq
    exact absurd (List.cons.inj heq).1 (ne_of_isBareChar hc rfl)
  next heq =>
    rw [hcs] at heq
    exact absurd (List.cons.inj heq).1 (ne_of_isBareChar hc rfl)
  next =>
    rw [hspan, hcs]
    simp only
    rw [← hcs, String.ofList_toList]

theorem readKey?_bare {key : String} (hkey : Bare key) (rest : List Char) :
    readKey? (key.toList ++ ' ' :: '=' :: rest) = some (⟨[], key⟩, '=' :: rest) := by
  obtain ⟨c, cs, hcs, hc⟩ := hkey.exists_cons
  have hskip : skipBlank (key.toList ++ ' ' :: '=' :: rest) = key.toList ++ ' ' :: '=' :: rest := by
    rw [hcs, List.cons_append, skipBlank_of_not_blank (isBlank_of_isBareChar hc)]
  have hbehind : skipBlank (' ' :: '=' :: rest) = '=' :: rest := rfl
  rw [readKey?, keyLimit, readKeyUpTo?, hskip, readName?_bare hkey rfl]
  simp only [hbehind]
  rfl

/-- A text is read as a value. -/
theorem readValue?_literalBefore (cs : List Char) {rest : List Char} (hrest : Unquoted rest) :
    readValue? (literalBefore cs rest) = some (.text (String.ofList cs), rest) := by
  obtain ⟨quote, more, hcs, hquote⟩ := exists_literalBefore_eq cs rest
  have hread := readText?_literalBefore cs hrest
  have hscalar : readValue? (quote :: more) = readScalar? (quote :: more) := by
    rcases hquote with rfl | rfl <;> rfl
  rw [hcs] at hread ⊢
  rw [hscalar]
  rcases hquote with rfl | rfl
  · simp [readScalar?, hread]
  · simp [readScalar?, hread]

/-! ## Lines -/

/-- The statement that a line makes. -/
def assignment (key value : String) : Statement := .assignment ⟨[], key⟩ (.text value)

theorem readStatement?_line {key : String} (hkey : Bare key) (value : String) (rest : List Char) :
    readStatement? ((line key value).toList ++ rest) =
      some (assignment key value, '\n' :: rest) := by
  obtain ⟨c, cs, hcs, hc⟩ := hkey.exists_cons
  obtain ⟨quote, more, hliteral, hquote⟩ := exists_literalBefore_eq value.toList ('\n' :: rest)
  have hskip : skipBlank (' ' :: literalBefore value.toList ('\n' :: rest)) =
      literalBefore value.toList ('\n' :: rest) := by
    rw [hliteral]
    rcases hquote with rfl | rfl <;> rfl
  have hassign : readAssignment? readValue? ((line key value).toList ++ rest) =
      some ((⟨[], key⟩, .text value), '\n' :: rest) := by
    rw [toList_line, readAssignment?, readKey?_bare hkey]
    simp only [hskip]
    rw [readValue?_literalBefore _ (stops_cons.mpr rfl), String.ofList_toList]
    rfl
  unfold readStatement?
  split
  next heq =>
    rw [toList_line, hcs] at heq
    exact absurd (List.cons.inj heq).1 (ne_of_isBareChar hc rfl)
  next heq =>
    rw [toList_line, hcs] at heq
    exact absurd (List.cons.inj heq).1 (ne_of_isBareChar hc rfl)
  next => rw [hassign, Option.map_some]; rfl

theorem readLines?_line {key : String} (hkey : Bare key) (value : String) (fuel : Nat)
    (rest : List Char) :
    readLines? (fuel + 1) ((line key value).toList ++ rest) =
      (readLines? fuel rest).map (assignment key value :: ·) := by
  obtain ⟨c, cs, hcs, hc⟩ := hkey.exists_cons
  have hread := readStatement?_line hkey value rest
  have hline : afterLine? ('\n' :: rest) = some rest := rfl
  have hfirst : ∃ more, (line key value).toList ++ rest = c :: more := by
    rw [toList_line, hcs]
    exact ⟨_, rfl⟩
  obtain ⟨more, hmore⟩ := hfirst
  have hskip := skipBlank_of_not_blank (isBlank_of_isBareChar hc) more
  have hempty : isEmptyLine (c :: more) = false := by
    simp [isEmptyLine, hskip, ne_of_isBareChar hc (d := '\n') rfl,
      ne_of_isBareChar hc (d := '\r') rfl, ne_of_isBareChar hc (d := '#') rfl]
  rw [hmore] at hread ⊢
  rw [readLines?, hempty, hskip, hread]
  simp only [hline, Bool.false_eq_true, if_false, Option.bind_some]

/-- The text of lines, each a name with a text. -/
def linesOf (pairs : List (String × String)) : List Char :=
  pairs.flatMap fun (key, value) => (line key value).toList

theorem linesOf_cons (key value : String) (pairs : List (String × String)) :
    linesOf ((key, value) :: pairs) = (line key value).toList ++ linesOf pairs := by
  rw [linesOf, List.flatMap_cons]
  rfl

theorem readLines?_linesOf {pairs : List (String × String)} (hbare : ∀ p ∈ pairs, Bare p.1)
    {fuel : Nat} (hfuel : pairs.length ≤ fuel) :
    readLines? fuel (linesOf pairs) =
      some (pairs.map fun (key, value) => assignment key value) := by
  induction pairs generalizing fuel with
  | nil => rw [linesOf, List.flatMap_nil, readLines?, List.map_nil]
  | cons p pairs ih =>
    obtain ⟨hp, hbare⟩ := List.forall_mem_cons.mp hbare
    obtain ⟨fuel, rfl⟩ := Nat.exists_eq_add_of_le' hfuel
    rw [linesOf_cons, List.length_cons, ← Nat.add_assoc, readLines?_line hp,
      ih hbare (Nat.le_add_left _ fuel), Option.map_some, List.map_cons]

/-- Every line has a character, so the length of the text is fuel enough. -/
theorem length_le_length_linesOf (pairs : List (String × String)) :
    pairs.length ≤ (linesOf pairs).length := by
  induction pairs with
  | nil => exact Nat.zero_le _
  | cons p pairs ih =>
    have hline : 0 < (line p.1 p.2).toList.length := by
      simp only [line, String.toList_append, List.length_append]
      exact Nat.lt_of_lt_of_le (by decide : 0 < "\n".toList.length) (Nat.le_add_left _ _)
    rw [linesOf_cons, List.length_cons, List.length_append]
    omega

theorem readStatements?_linesOf {pairs : List (String × String)}
    (hbare : ∀ p ∈ pairs, Bare p.1) :
    readStatements? (linesOf pairs) =
      some (pairs.map fun (key, value) => assignment key value) := by
  have hread := readLines?_linesOf hbare (length_le_length_linesOf pairs)
  cases pairs with
  | nil => exact hread
  | cons p pairs =>
    obtain ⟨c, cs, hcs, hc⟩ := (hbare p List.mem_cons_self).exists_cons
    unfold readStatements?
    split
    next heq =>
      rw [linesOf_cons, toList_line, hcs] at heq
      exact absurd (List.cons.inj heq).1 (ne_of_isBareChar hc rfl)
    next => exact hread

/-! ## Documents of lines -/

/-- A name that is new among entries gets its text at their end. -/
theorem assign?_new {es : Entries} {key : String} (hkey : key ∉ es.map Prod.fst) (v : Value) :
    es.assign? true [] key v = some (es ++ [(key, .value v)]) := by
  have hlookup : es.lookup key = none := by
    rw [List.lookup_eq_none_iff]
    rintro p hp
    exact bne_iff_ne.mpr fun heq => hkey (heq ▸ List.mem_map_of_mem hp)
  simp [Entries.assign?, Entries.putNew?, Entries.put, hlookup]

theorem assemble?_assignments {pairs : List (String × String)} (es : Entries)
    (hdistinct : (es.map Prod.fst ++ pairs.map Prod.fst).Nodup) :
    assemble? es (pairs.map fun (key, value) => assignment key value) =
      some (es ++ pairs.map fun (key, value) => (key, .value (.text value))) := by
  induction pairs generalizing es with
  | nil => rw [List.map_nil, assemble?, List.map_nil, List.append_nil]
  | cons p pairs ih =>
    obtain ⟨key, value⟩ := p
    have hnew : key ∉ es.map Prod.fst := by
      intro hmem
      exact (List.nodup_append.mp hdistinct).2.2 key hmem key List.mem_cons_self rfl
    have hrest : ((es ++ [(key, Node.value (.text value))]).map Prod.fst ++
        pairs.map Prod.fst).Nodup := by
      simpa using hdistinct
    have hstep :
        assemble? es (((key, value) :: pairs).map fun (key, value) => assignment key value) =
        (es.assign? true [] key (.text value)).bind fun es =>
          assemble? es (pairs.map fun (key, value) => assignment key value) := by
      rw [List.map_cons]
      exact assemble?.eq_2 ..
    rw [hstep, assign?_new hnew, Option.bind_some, ih _ hrest]
    simp

theorem entriesToValues_texts (pairs : List (String × String)) :
    entriesToValues (pairs.map fun (key, value) => (key, .value (.text value))) =
      pairs.map fun (key, value) => (key, .text value) := by
  induction pairs with
  | nil => rw [List.map_nil, List.map_nil, entriesToValues]
  | cons p pairs ih => rw [List.map_cons, List.map_cons, entriesToValues, Node.toValue, ih]

/-- **A document of lines is read as its names with their texts**, whatever the texts are. -/
theorem readDocument?_linesOf {pairs : List (String × String)} (hbare : ∀ p ∈ pairs, Bare p.1)
    (hdistinct : (pairs.map Prod.fst).Nodup) :
    readDocument? (String.ofList (linesOf pairs)) =
      some (pairs.map fun (key, value) => (key, .text value)) := by
  have hentries := assemble?_assignments [] hdistinct
  rw [List.nil_append] at hentries
  rw [readDocument?, String.toList_ofList, readStatements?_linesOf hbare]
  simp only [Option.bind_eq_bind, Option.bind_some, hentries]
  exact congrArg some (entriesToValues_texts pairs)

/-! ## Settings -/

/-- The names of settings with their texts. -/
def texts (s : Settings) : List (String × String) :=
  [("tokens_dir", s.tokensDir), ("dist_dir", s.distDir), ("var_prefix", s.varPrefix),
    ("tree_type", s.treeType.name)]

theorem toToml_eq (s : Settings) : s.toToml = String.ofList (linesOf s.texts) := by
  rw [← String.toList_inj, String.toList_ofList]
  simp [toToml, linesOf, texts]

theorem ofEntries?_texts (s : Settings) :
    Layer.ofEntries? (s.texts.map fun (key, value) => (key, .text value)) =
      some ⟨s.tokensDir, s.distDir, s.varPrefix, s.treeType⟩ := by
  have hshape : treeTypeOf? (.text s.treeType.name) = some s.treeType := s.treeType.ofName?_name
  have hfield : treeTypeField? (s.texts.map fun (key, value) => (key, .text value)) "tree_type" =
      some (some s.treeType) := by
    rw [treeTypeField?, show Value.find? _ "tree_type" = some (.text s.treeType.name) from rfl]
    simp only [hshape, Option.map_some]
  rw [Layer.ofEntries?, hfield]
  rfl

/-- **Settings are read back from their document**, whatever characters their paths and their prefix
have. -/
theorem ofToml?_toToml (s : Settings) : ofToml? s.toToml = some s := by
  have hbare : ∀ p ∈ s.texts, Bare p.1 := by
    simp only [texts, List.forall_mem_cons]
    exact ⟨by decide, by decide, by decide, by decide, nofun⟩
  have hread := readDocument?_linesOf hbare (by simp [texts])
  rw [ofToml?, Layer.ofToml?, toToml_eq, hread, Option.bind_some, ofEntries?_texts]
  rfl

end Downline.Settings
