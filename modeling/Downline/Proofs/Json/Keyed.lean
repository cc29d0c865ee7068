import Downline.Json.Value
import Mathlib.Data.List.Nodup

/-!
# Objects without repeated keys

An object is a list of entries, in which a key might occur twice; looking a key up and going through
the entries would then tell different things. A value is `Keyed` if that happens nowhere in it.
Every value that has been read is keyed (`keyed_of_ofString?`), for a repeated key replaces the
value that is there. In keyed values what stands among the entries is what is found (`get?_of_mem`).
-/

namespace Downline.Json

/-- Under distinct keys an entry is the one that is found. -/
theorem lookup_of_mem {κ ν : Type} [BEq κ] [LawfulBEq κ] {entries : List (κ × ν)}
    (hdistinct : (entries.map Prod.fst).Nodup) {key : κ} {v : ν} (h : (key, v) ∈ entries) :
    entries.lookup key = some v := by
  obtain ⟨before, after, rfl⟩ := List.append_of_mem h
  rw [List.map_append, List.nodup_append] at hdistinct
  refine List.lookup_eq_some_iff.mpr ⟨before, after, rfl, fun entry hentry => ?_⟩
  have hne := hdistinct.2.2 entry.1 (List.mem_map_of_mem hentry) key (.head _)
  exact bne_iff_ne.mpr (Ne.symm hne)

namespace Entries

theorem mem_insert {e : Entries} {key : String} {v : Value} {entry : String × Value}
    (h : entry ∈ e.insert key v) : entry = (key, v) ∨ entry ∈ e := by
  induction e with
  | nil => exact .inl (List.mem_singleton.mp h)
  | cons other e ih =>
    rw [insert] at h
    split at h
    next hkey =>
      subst hkey
      exact (List.mem_cons.mp h).imp_right (List.mem_cons_of_mem _)
    next =>
      rcases List.mem_cons.mp h with rfl | h
      · exact .inr (.head _)
      · exact (ih h).imp_right (List.mem_cons_of_mem _)

/-- A key that is there keeps its place, any other one is put at the end. -/
theorem keys_insert (e : Entries) (key : String) (v : Value) :
    (e.insert key v).map Prod.fst =
      if key ∈ e.map Prod.fst then e.map Prod.fst else e.map Prod.fst ++ [key] := by
  induction e with
  | nil => rfl
  | cons other e ih =>
    rw [insert]
    split
    next hkey => simp [hkey]
    next hkey =>
      have hne : key ≠ other.1 := Ne.symm hkey
      simp only [List.map_cons, ih, List.mem_cons, hne, false_or]
      split <;> rfl

theorem nodup_insert {e : Entries} (h : (e.map Prod.fst).Nodup) (key : String) (v : Value) :
    ((e.insert key v).map Prod.fst).Nodup := by
  rw [keys_insert]
  split
  next => exact h
  next hnew =>
    refine List.nodup_append.mpr ⟨h, List.nodup_singleton _, fun k hk k' hk' heq => hnew ?_⟩
    rw [← List.mem_singleton.mp hk', ← heq]
    exact hk

end Entries

namespace Value

/-- No object in the value has a key twice. -/
inductive Keyed : Value → Prop where
  | null : Keyed .null
  | bool (b : Bool) : Keyed (.bool b)
  | number (n : Number) : Keyed (.number n)
  | text (s : String) : Keyed (.text s)
  | list {items : List Value} (keyed : ∀ v ∈ items, Keyed v) : Keyed (.list items)
  | object {entries : List (String × Value)} (distinct : (entries.map Prod.fst).Nodup)
      (keyed : ∀ e ∈ entries, Keyed e.2) : Keyed (.object entries)

namespace Keyed

theorem empty : Keyed (.object []) := .object List.nodup_nil fun _ h => nomatch h

theorem of_mem_entries {v w : Value} {key : String} (h : v.Keyed) (hmem : (key, w) ∈ v.entries) :
    w.Keyed := by
  cases h with
  | object _ keyed => exact keyed _ hmem
  | _ => cases hmem

/-- What stands among the entries is found. -/
theorem get?_of_mem {v w : Value} {key : String} (h : v.Keyed) (hmem : (key, w) ∈ v.entries) :
    v.get? key = some w := by
  cases h with
  | object distinct _ => exact lookup_of_mem distinct hmem
  | _ => cases hmem

theorem of_get? {v w : Value} {key : String} (h : v.Keyed) (hget : v.get? key = some w) :
    w.Keyed := by
  cases h with
  | object _ keyed =>
    obtain ⟨before, after, rfl, -⟩ := List.lookup_eq_some_iff.mp hget
    exact keyed _ (List.mem_append_right _ (.head _))
  | _ => cases hget

/-- Entries may be left out. -/
theorem filter {entries : Entries} (h : Keyed (.object entries)) (keep : String × Value → Bool) :
    Keyed (.object (entries.filter keep)) := by
  cases h with
  | object distinct keyed =>
    exact .object (distinct.sublist (List.filter_sublist.map _))
      fun e he => keyed e (List.mem_of_mem_filter he)

/-- A value may be put under any key. -/
theorem insert {entries : Entries} {v : Value} (h : Keyed (.object entries)) (hv : v.Keyed)
    (key : String) : Keyed (.object (entries.insert key v)) := by
  cases h with
  | object distinct keyed =>
    refine .object (Entries.nodup_insert distinct key v) fun e he => ?_
    rcases Entries.mem_insert he with rfl | he
    · exact hv
    · exact keyed e he

end Keyed

/-! ## Values that have been read -/

mutual

/-- What a document means has no key twice, however often the document repeats one. -/
theorem keyed_of_value? : ∀ {d : Document} {v : Value}, d.value? = some v → v.Keyed
  | .null, _, h => by
    rw [Document.value?] at h
    cases h
    exact .null
  | .bool b, _, h => by
    rw [Document.value?] at h
    cases h
    exact .bool b
  | .number n, _, h => by
    rw [Document.value?] at h
    obtain ⟨n, _, rfl⟩ := Option.map_eq_some_iff.mp h
    exact .number n
  | .text s, _, h => by
    rw [Document.value?] at h
    obtain ⟨s, _, rfl⟩ := Option.map_eq_some_iff.mp h
    exact .text s
  | .list items, _, h => by
    rw [Document.value?] at h
    obtain ⟨vs, hvs, rfl⟩ := Option.map_eq_some_iff.mp h
    exact .list (keyed_of_valueOfItems? hvs)
  | .object entries, _, h => by
    rw [Document.value?] at h
    obtain ⟨es, hes, rfl⟩ := Option.map_eq_some_iff.mp h
    exact keyed_of_valueOfEntries? .empty hes

theorem keyed_of_valueOfItems? : ∀ {ds : List Document} {vs : List Value},
    Document.valueOfItems? ds = some vs → ∀ v ∈ vs, v.Keyed
  | [], _, h, v, hv => by
    rw [Document.valueOfItems?] at h
    cases h
    cases hv
  | d :: ds, _, h, v, hv => by
    rw [Document.valueOfItems?] at h
    split at h
    next => cases h
    next w hw =>
      obtain ⟨vs, hvs, rfl⟩ := Option.map_eq_some_iff.mp h
      rcases List.mem_cons.mp hv with rfl | hv
      · exact keyed_of_value? hw
      · exact keyed_of_valueOfItems? hvs v hv

/-- Entries are added one by one to an object that has no key twice. -/
theorem keyed_of_valueOfEntries? :
    ∀ {entries : List (Option String × Document)} {read es : Entries},
      Keyed (.object read) → Document.valueOfEntries? entries read = some es → Keyed (.object es)
  | [], _, _, hread, h => by
    rw [Document.valueOfEntries?] at h
    cases h
    exact hread
  | (key, d) :: entries, _, _, hread, h => by
    cases key with
    | none => simp [Document.valueOfEntries?] at h
    | some key =>
      cases hd : d.value? with
      | none => simp [Document.valueOfEntries?, hd] at h
      | some v =>
        simp only [Document.valueOfEntries?, hd] at h
        exact keyed_of_valueOfEntries? (hread.insert (keyed_of_value? hd) key) h

end

/-- **Values that have been read have no key twice.** -/
theorem keyed_of_ofString? {s : String} {v : Value} (h : ofString? s = some v) : v.Keyed := by
  rw [ofString?] at h
  split at h
  next => cases h
  next d _ =>
    split at h
    next => exact keyed_of_value? h
    next => cases h

end Value

end Downline.Json
