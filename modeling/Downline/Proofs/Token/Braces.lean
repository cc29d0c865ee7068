import Downline.Proofs.Json.Writing
import Downline.Proofs.Token.References
import Mathlib.Data.List.Basic

/-!
# Braces in the values that components declare

Only texts are looked at for references. A list is declared in its compact form, with the texts in
it as they are, and so with their references, whether these mean something or not; an object in a
list brings its own braces. Which values are declared with braces is therefore told by the documents
alone: the lists that hold an object, or a text with a brace, at any depth (`declared_braces`). No
table of references and no prefix makes a difference to it.

The compact form escapes no brace and makes none of anything else but objects
(`braceFree_compactBefore`), so numbers, truth values and `null` never have one.
-/

namespace Downline.Token

open Json

/-! ## Compact forms -/

theorem isBrace_of_isDigit {c : Char} (h : c.isDigit = true) : isBrace c = false :=
  isBrace_eq_false_of (fun c => c.isDigit = true) (by decide) (by decide) h

theorem braceFree_ofNat (n : Nat) : BraceFree (Decimal.Digits.ofNat n) := fun c hc =>
  isBrace_of_isDigit (Decimal.Digits.isDigit_of_mem_ofNat n c hc)

theorem braceFree_replicate_zero (n : Nat) : BraceFree (List.replicate n '0') := fun c hc => by
  rw [List.eq_of_mem_replicate hc]
  rfl

theorem braceFree_scaledChars (d : Decimal.Scaled) : BraceFree (Number.scaledChars d) := by
  have hdigits := braceFree_ofNat d.digits
  have hexponent (n : Nat) := braceFree_ofNat n
  have hmark (p : Prop) [Decidable p] : BraceFree (if p then ['e', '-'] else ['e', '+']) := by
    split <;> decide
  have hpoint : isBrace '.' = false := rfl
  have hzero : isBrace '0' = false := rfl
  rw [Number.scaledChars]
  generalize Decimal.Digits.ofNat d.digits = ds at hdigits
  have htake (n : Nat) : BraceFree (ds.take n) := fun c hc => hdigits c (List.mem_of_mem_take hc)
  have hdrop (n : Nat) : BraceFree (ds.drop n) := fun c hc => hdigits c (List.mem_of_mem_drop hc)
  -- With the point in place: behind all digits, among them, or in front of them.
  split
  · split
    · simp only [braceFree_append, braceFree_cons]
      exact ⟨⟨hdigits, braceFree_replicate_zero _⟩, hpoint, hzero, braceFree_nil⟩
    split
    · simp only [braceFree_append, braceFree_cons]
      exact ⟨htake _, hpoint, hdrop _⟩
    · simp only [braceFree_append, braceFree_cons]
      exact ⟨⟨hzero, hpoint, braceFree_replicate_zero _⟩, hdigits⟩
  -- With an exponent, and the point behind the first of several digits.
  cases ds with
  | nil => exact braceFree_append.mpr ⟨hmark _, hexponent _⟩
  | cons c cs =>
    cases cs with
    | nil => exact braceFree_append.mpr ⟨braceFree_append.mpr ⟨hdigits, hmark _⟩, hexponent _⟩
    | cons c' cs =>
      obtain ⟨hc, hcs⟩ := braceFree_cons.mp hdigits
      have hmantissa : BraceFree (c :: '.' :: c' :: cs) :=
        braceFree_cons.mpr ⟨hc, braceFree_cons.mpr ⟨hpoint, hcs⟩⟩
      exact braceFree_append.mpr ⟨braceFree_append.mpr ⟨hmantissa, hmark _⟩, hexponent _⟩

/-- Numbers are written without braces. -/
theorem braceFree_numberChars (n : Number) : BraceFree n.chars := by
  cases n with
  | natural n => exact braceFree_ofNat n.toNat
  | negative m => exact braceFree_cons.mpr ⟨rfl, braceFree_ofNat m⟩
  | float bits =>
    have hsigned (p : Prop) [Decidable p] {magnitude : List Char} (h : BraceFree magnitude) :
        BraceFree (if p then '-' :: magnitude else magnitude) := by
      split
      · exact braceFree_cons.mpr ⟨rfl, h⟩
      · exact h
    rw [Number.chars, Number.floatChars]
    cases Decimal.Binary.ofBits? bits with
    | none => exact hsigned _ (by decide)
    | some b => exact hsigned _ (braceFree_scaledChars b.shortest)

/-- What is escaped is no brace, and becomes none. -/
theorem braceFree_escapedChar (c : Char) : BraceFree (escapedChar c) ↔ isBrace c = false := by
  cases hbrace : isBrace c with
  | true =>
    refine iff_of_false ?_ (by simp)
    rcases isBrace_eq_true_iff.mp hbrace with rfl | rfl <;> decide
  | false =>
    refine iff_of_true ?_ rfl
    rcases escapedChar_cases c with ⟨e, he, hc⟩ | ⟨hcontrol, hc⟩ | ⟨-, hc⟩ <;> rw [hc]
    · have hslash : isBrace '\\' = false := rfl
      have hletter : isBrace e = false :=
        isBrace_eq_false_of (fun e => Document.escaped? e = some c) nofun nofun he
      exact braceFree_cons.mpr ⟨hslash, braceFree_cons.mpr ⟨hletter, braceFree_nil⟩⟩
    · have hspelled : ∀ n < 0x20, BraceFree
          ['\\', 'u', '0', '0', hexDigit (n / 16), hexDigit (n % 16)] := by decide
      exact hspelled _ hcontrol
    · exact braceFree_cons.mpr ⟨hbrace, braceFree_nil⟩

theorem braceFree_stringBefore (s : String) (rest : List Char) :
    BraceFree (stringBefore s rest) ↔ BraceFree s.toList ∧ BraceFree rest := by
  have hquote : isBrace '"' = false := rfl
  have htext (cs : List Char) : BraceFree (textBefore cs rest) ↔ BraceFree cs ∧ BraceFree rest := by
    induction cs with
    | nil => rw [textBefore, braceFree_cons, and_iff_right hquote, and_iff_right braceFree_nil]
    | cons c cs ih =>
      rw [textBefore, braceFree_append, braceFree_escapedChar, ih, braceFree_cons, and_assoc]
  rw [stringBefore, braceFree_cons, and_iff_right hquote, htext]

mutual

/-- True of the values with a brace in their compact form. -/
def braced : Value → Bool
  | .object _ => true
  | .text s => s.toList.any isBrace
  | .list items => bracedItems items
  | _ => false

def bracedItems : List Value → Bool
  | [] => false
  | v :: vs => braced v || bracedItems vs

end

mutual

theorem braceFree_compactBefore (v : Value) (rest : List Char) :
    BraceFree (v.compactBefore rest) ↔ braced v = false ∧ BraceFree rest := by
  have hword (cs : List Char) (h : BraceFree cs) : BraceFree (cs ++ rest) ↔ BraceFree rest := by
    rw [braceFree_append, and_iff_right h]
  cases v with
  | null => exact (hword ['n', 'u', 'l', 'l'] (by decide)).trans (and_iff_right rfl).symm
  | bool b =>
    cases b with
    | true => exact (hword ['t', 'r', 'u', 'e'] (by decide)).trans (and_iff_right rfl).symm
    | false => exact (hword ['f', 'a', 'l', 's', 'e'] (by decide)).trans (and_iff_right rfl).symm
  | number n => exact (hword n.chars (braceFree_numberChars n)).trans (and_iff_right rfl).symm
  | text s =>
    rw [Value.compactBefore, braceFree_stringBefore, braced, any_isBrace_eq_false]
  | list items =>
    have hopen : isBrace '[' = false := rfl
    have hclose : isBrace ']' = false := rfl
    rw [Value.compactBefore, braceFree_cons, and_iff_right hopen, braceFree_compactItems,
      braceFree_cons, and_iff_right hclose, braced]
  | object entries =>
    have hopen : isBrace '\x7b' = true := rfl
    rw [Value.compactBefore, braceFree_cons, hopen, braced]
    simp only [Bool.true_eq_false, false_and]

theorem braceFree_compactItems (items : List Value) (rest : List Char) :
    BraceFree (Value.compactItems items rest) ↔ bracedItems items = false ∧ BraceFree rest := by
  match items with
  | [] => exact (and_iff_right rfl).symm
  | [v] =>
    rw [Value.compactItems, braceFree_compactBefore, bracedItems, bracedItems, Bool.or_false]
  | v :: w :: vs =>
    have hcomma : isBrace ',' = false := rfl
    rw [bracedItems, Bool.or_eq_false_iff, Value.compactItems, braceFree_compactBefore,
      braceFree_cons, and_iff_right hcomma, braceFree_compactItems (w :: vs), and_assoc]

end

/-- A value has a brace in its compact form exactly if it is told to have one. -/
theorem any_isBrace_compact (v : Value) : v.compact.toList.any isBrace = braced v := by
  have hiff := braceFree_compactBefore v []
  rw [and_iff_left braceFree_nil, ← any_isBrace_eq_false] at hiff
  rw [Value.compact, String.toList_ofList, Bool.eq_iff_iff, ← Bool.not_eq_false,
    ← Bool.not_eq_false, hiff]

/-! ## Values below components -/

mutual

/-- What is found below a value is no object. -/
theorem isObject_of_mem_leaves (path : List String) (v : Value) :
    ∀ leaf ∈ leaves path v, leaf.2.isObject = false := by
  cases v with
  | object entries => exact isObject_of_mem_leavesOfEntries path entries
  | null | bool | number | text | list =>
    intro leaf hleaf
    cases List.mem_singleton.mp hleaf
    rfl

theorem isObject_of_mem_leavesOfEntries (path : List String) (entries : List (String × Value)) :
    ∀ leaf ∈ leavesOfEntries path entries, leaf.2.isObject = false := by
  cases entries with
  | nil => exact fun _ hleaf => nomatch hleaf
  | cons entry entries =>
    intro leaf hleaf
    rcases List.mem_append.mp hleaf with hfirst | hrest
    · exact isObject_of_mem_leaves (path ++ [sanitize entry.1]) entry.2 leaf hfirst
    · exact isObject_of_mem_leavesOfEntries path entries leaf hrest

end

theorem isObject_of_mem_componentLeaves {components : Value} {leaf : List String × Value}
    (h : leaf ∈ componentLeaves components) : leaf.2.isObject = false := by
  obtain ⟨⟨name, spec⟩, -, hleaf⟩ := List.mem_flatMap.mp h
  exact isObject_of_mem_leavesOfEntries _ _ leaf hleaf

/-- True of properties with a brace in their value. -/
def ComponentProperty.braced (p : ComponentProperty) : Bool := p.value.toList.any isBrace

/-- True of lists with a brace in their compact form. -/
def bracedList : Value → Bool
  | .list items => bracedItems items
  | _ => false

variable {meaning : String → Option String}

/-- Of all values but objects only lists are declared with braces, and then as they are. -/
theorem filter_leafProperty? (path : List String) {v : Value} (h : v.isObject = false) :
    (leafProperty? meaning (path, v)).filter ComponentProperty.braced =
      if bracedList v then some ⟨path, v.compact⟩ else none := by
  have hshown (hv : componentText? meaning v = some v.compact) :
      (leafProperty? meaning (path, v)).filter ComponentProperty.braced =
        if braced v then some ⟨path, v.compact⟩ else none := by
    rw [leafProperty?, hv, Option.map_some, Option.filter_some, ComponentProperty.braced,
      any_isBrace_compact]
  cases v with
  | object entries => cases h
  | null | bool | number => exact hshown rfl
  | list items => exact hshown rfl
  | text s =>
    rw [leafProperty?]
    cases htext : componentText? meaning (.text s) with
    | none => rfl
    | some t =>
      have hfree : BraceFree t.toList :=
        braceFree_of_rewritten (fun _ _ hmeans => hmeans.2) (componentText?_eq_some_iff.mp htext)
      rw [Option.map_some, Option.filter_some, ComponentProperty.braced,
        any_isBrace_eq_false.mpr hfree]
      rfl

/-- **Which values are declared with braces.** The values that components declare with a brace are
the lists with a brace in them, in their order and unchanged. So no value is declared with a brace
exactly if the components hold no such list, whatever the tokens and the prefix are. -/
theorem declared_braces (sources : Sources) (varPrefix : String) :
    (∃ front, stylesheetLines sources varPrefix = front ++
      (sources.componentDeclarations varPrefix).map (ComponentProperty.line varPrefix)
        ++ ["\x7d", ""]) ∧
    (sources.componentDeclarations varPrefix).filter ComponentProperty.braced =
      ((componentLeaves sources.components).filter fun leaf => bracedList leaf.2).map
        (fun leaf => ⟨leaf.1, leaf.2.compact⟩) ∧
    ((∀ p ∈ sources.componentDeclarations varPrefix, BraceFree p.value.toList) ↔
      ∀ leaf ∈ componentLeaves sources.components, bracedList leaf.2 = false) := by
  have hfilter : (sources.componentDeclarations varPrefix).filter ComponentProperty.braced =
      ((componentLeaves sources.components).filter fun leaf => bracedList leaf.2).map
        (fun leaf => (⟨leaf.1, leaf.2.compact⟩ : ComponentProperty)) := by
    rw [Sources.componentDeclarations, allComponentProperties_eq, List.filter_filterMap,
      ← List.filterMap_eq_map, List.filterMap_filter]
    exact List.filterMap_congr fun leaf hleaf =>
      filter_leafProperty? leaf.1 (isObject_of_mem_componentLeaves hleaf)
  refine ⟨⟨_, stylesheetLines_eq sources varPrefix⟩, hfilter, ?_⟩
  have hnone : (∀ p ∈ sources.componentDeclarations varPrefix, BraceFree p.value.toList) ↔
      (sources.componentDeclarations varPrefix).filter ComponentProperty.braced = [] := by
    simp only [List.filter_eq_nil_iff, ComponentProperty.braced, Bool.not_eq_true,
      any_isBrace_eq_false]
  rw [hnone, hfilter, List.map_eq_nil_iff, List.filter_eq_nil_iff]
  simp only [Bool.not_eq_true]

/-- A component with a list that refers to a token, and no tokens. -/
def unresolvedList : Sources where
  colors := .object []
  typography := .object []
  components := .object [("components", .object [("button", .object
    [("shadow", .list [.text "\x7bcolors.palette.gone.value\x7d"])])])]

/-- The list is declared with its reference, which means nothing. -/
theorem declared_brace_unresolvedList :
    unresolvedList.componentDeclarations "p" =
      [⟨["button", "shadow"], "[\"\x7bcolors.palette.gone.value\x7d\"]"⟩] ∧
    ¬ ∀ p ∈ unresolvedList.componentDeclarations "p", BraceFree p.value.toList := by
  have hdeclared : unresolvedList.componentDeclarations "p" =
      [⟨["button", "shadow"], "[\"\x7bcolors.palette.gone.value\x7d\"]"⟩] := by decide +kernel
  refine ⟨hdeclared, fun h => ?_⟩
  rw [hdeclared] at h
  exact absurd (h _ (List.mem_singleton.mpr rfl)) (by decide)

end Downline.Token
