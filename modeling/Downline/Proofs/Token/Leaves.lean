import Downline.Proofs.Token.References
import Mathlib.Data.List.Basic

/-!
# Which values components declare

A value below a component stands at a place: the steps that lead to it, each with the number of an
entry among those of its object and with its key. Keys alone would not do, for two entries may come
to one name. `located` lists the values that are no objects with the steps that lead to them, each
of them once and in the order of the document, which is the lexicographic one of the numbers
(`mem_located`, `pairwise_located`).

The components of a style sheet declare one value after the other of this list, those that have a
text, and nothing else (`declared_leaves`). A value counts as declared by a component only if it is
below one, so a component that is no object declares nothing, and neither does an empty object.
-/

namespace Downline.Token

open Json

/-! ## Steps -/

/-- A step into an object: the number of an entry, and its key. -/
structure Step where
  place : Nat
  key : String
  deriving DecidableEq, Repr

/-- Steps that lead from a value, through objects only, to another one. -/
inductive Reaches : Value → List Step → Value → Prop where
  | here (v : Value) : Reaches v [] v
  | into {entries : Entries} {s : Step} {v w : Value} {steps : List Step}
      (h : entries[s.place]? = some (s.key, v)) (rest : Reaches v steps w) :
      Reaches (.object entries) (s :: steps) w

/-- A value that is no object below a component that is one, with the steps that lead to it: the
first one to the component, and one or more from there on. -/
def IsComponentLeaf (components : Value) (steps : List Step) (leaf : Value) : Prop :=
  ∃ entries inner first rest, components.get? "components" = some (.object entries) ∧
    entries[first.place]? = some (first.key, .object inner) ∧
    Reaches (.object inner) rest leaf ∧ leaf.isObject = false ∧ steps = first :: rest

mutual

/-- The values that are no objects below a value, or it itself, with the steps that lead there. -/
def located : Value → List (List Step × Value)
  | .object entries => locatedFrom 0 entries
  | v => [([], v)]

/-- The same for entries of which the first one has the given number. -/
def locatedFrom (place : Nat) : List (String × Value) → List (List Step × Value)
  | [] => []
  | (key, v) :: entries =>
    (located v).map (fun (steps, w) => (⟨place, key⟩ :: steps, w))
      ++ locatedFrom (place + 1) entries

end

mutual

theorem mem_located (v : Value) {steps : List Step} {w : Value} :
    (steps, w) ∈ located v ↔ Reaches v steps w ∧ w.isObject = false := by
  cases v with
  | object entries =>
    rw [located, mem_locatedFrom entries]
    constructor
    · rintro ⟨i, key, v, rest, hentry, rfl, hreaches, hw⟩
      exact ⟨.into (s := ⟨0 + i, key⟩) (by rwa [Nat.zero_add]) hreaches, hw⟩
    · rintro ⟨hreaches, hw⟩
      cases hreaches with
      | here => cases hw
      | @into _ s v _ rest hentry hrest =>
        exact ⟨s.place, s.key, v, rest, hentry, by rw [Nat.zero_add], hrest, hw⟩
  | null | bool | number | text | list =>
    constructor
    · intro h
      cases List.mem_singleton.mp h
      exact ⟨.here _, rfl⟩
    · rintro ⟨hreaches, -⟩
      cases hreaches
      exact List.mem_singleton.mpr rfl

theorem mem_locatedFrom (entries : List (String × Value)) {place : Nat} {steps : List Step}
    {w : Value} :
    (steps, w) ∈ locatedFrom place entries ↔ ∃ i key v rest, entries[i]? = some (key, v) ∧
      steps = ⟨place + i, key⟩ :: rest ∧ Reaches v rest w ∧ w.isObject = false := by
  match entries with
  | [] => simp [locatedFrom]
  | (key, v) :: entries =>
    have hfirst : (steps, w) ∈ (located v).map (fun (steps, w) => (⟨place, key⟩ :: steps, w)) ↔
        ∃ rest, steps = ⟨place, key⟩ :: rest ∧ Reaches v rest w ∧ w.isObject = false := by
      constructor
      · intro h
        obtain ⟨⟨rest, _⟩, hrest, heq⟩ := List.mem_map.mp h
        cases heq
        exact ⟨rest, rfl, (mem_located v).mp hrest⟩
      · rintro ⟨rest, rfl, h⟩
        exact List.mem_map.mpr ⟨(rest, w), (mem_located v).mpr h, rfl⟩
    have hnext (i : Nat) : place + 1 + i = place + (i + 1) := by omega
    rw [locatedFrom, List.mem_append, hfirst, mem_locatedFrom entries]
    constructor
    · rintro (⟨rest, hsteps, h⟩ | ⟨i, key', v', rest, hentry, hsteps, h⟩)
      · exact ⟨0, key, v, rest, rfl, hsteps, h⟩
      · exact ⟨i + 1, key', v', rest, hentry, hnext i ▸ hsteps, h⟩
    · rintro ⟨i, key', v', rest, hentry, hsteps, h⟩
      cases i with
      | zero =>
        cases hentry
        exact .inl ⟨rest, hsteps, h⟩
      | succ i => exact .inr ⟨i, key', v', rest, hentry, hnext i ▸ hsteps, h⟩

end

/-! ## The order of the document -/

/-- One value stands before another one: where the steps to them part, its entry comes first. -/
def Before (a b : List Step × Value) : Prop := a.1.map Step.place < b.1.map Step.place

theorem before_cons_iff {a b : List Step × Value} {s s' : Step} (h : s.place = s'.place) :
    Before (s :: a.1, a.2) (s' :: b.1, b.2) ↔ Before a b := by
  simp [Before, h]

theorem before_of_place_lt {s s' : Step} {steps steps' : List Step} {v w : Value}
    (h : s.place < s'.place) : Before (s :: steps, v) (s' :: steps', w) :=
  .rel h

mutual

theorem pairwise_located (v : Value) : (located v).Pairwise Before := by
  cases v with
  | object entries => exact pairwise_locatedFrom entries 0
  | null | bool | number | text | list => exact List.pairwise_singleton _ _

theorem pairwise_locatedFrom (entries : List (String × Value)) (place : Nat) :
    (locatedFrom place entries).Pairwise Before := by
  match entries with
  | [] => exact .nil
  | (key, v) :: entries =>
    rw [locatedFrom, List.pairwise_append, List.pairwise_map]
    refine ⟨(pairwise_located v).imp (before_cons_iff rfl).mpr,
      pairwise_locatedFrom entries (place + 1), fun a ha b hb => ?_⟩
    obtain ⟨a', -, rfl⟩ := List.mem_map.mp ha
    obtain ⟨i, key', v', rest, -, hsteps, -⟩ := (mem_locatedFrom entries).mp hb
    obtain ⟨steps, w⟩ := b
    subst hsteps
    refine before_of_place_lt ?_
    show place < place + 1 + i
    omega

end

/-! ## Declarations -/

/-- The keys of steps as they stand in the name of a property. -/
def stepNames (steps : List Step) : List String := steps.map fun s => sanitize s.key

mutual

theorem leaves_eq (v : Value) (path : List String) :
    leaves path v = (located v).map fun (steps, w) => (path ++ stepNames steps, w) := by
  cases v with
  | object entries => exact leavesOfEntries_eq entries 0 path
  | null | bool | number | text | list => simp [leaves, located, stepNames]

theorem leavesOfEntries_eq (entries : List (String × Value)) (place : Nat) (path : List String) :
    leavesOfEntries path entries =
      (locatedFrom place entries).map fun (steps, w) => (path ++ stepNames steps, w) := by
  match entries with
  | [] => rfl
  | (key, v) :: entries =>
    rw [leavesOfEntries, locatedFrom, List.map_append, List.map_map, leaves_eq v,
      leavesOfEntries_eq entries (place + 1)]
    simp [stepNames]

end

/-- The values below components with the steps that lead to them, from the component on. -/
def locatedLeaves (components : Value) : List (List Step × Value) :=
  (locatedFrom 0 (sectionEntries components "components")).filter fun leaf => 2 ≤ leaf.1.length

theorem mem_locatedLeaves {components : Value} {steps : List Step} {v : Value} :
    (steps, v) ∈ locatedLeaves components ↔ IsComponentLeaf components steps v := by
  rw [locatedLeaves, List.mem_filter, mem_locatedFrom]
  constructor
  · rintro ⟨⟨i, key, component, rest, hentry, rfl, hreaches, hv⟩, hlength⟩
    have hget := get?_of_mem_sectionEntries (List.mem_of_getElem? hentry)
    rw [Nat.zero_add] at *
    cases hreaches with
    | here => simp at hlength
    | @into inner s w _ rest hstep hrest =>
      exact ⟨_, inner, ⟨i, key⟩, s :: rest, hget, hentry, .into hstep hrest, hv, rfl⟩
  · rintro ⟨entries, inner, first, rest, hget, hentry, hreaches, hv, rfl⟩
    have hsection : sectionEntries components "components" = entries := by
      rw [sectionEntries, hget]
      rfl
    have hlength : 1 ≤ rest.length := by
      cases hreaches with
      | here => cases hv
      | into => exact Nat.succ_pos _
    refine ⟨⟨first.place, first.key, .object inner, rest, hsection ▸ hentry, ?_, hreaches, hv⟩, ?_⟩
    · rw [Nat.zero_add]
    · simpa using hlength

theorem flatMap_leavesOfEntries (entries : List (String × Value)) (place : Nat) :
    (entries.flatMap fun (name, component) =>
        leavesOfEntries [sanitize name] component.entries) =
      ((locatedFrom place entries).filter fun leaf => 2 ≤ leaf.1.length).map
        fun (steps, v) => (stepNames steps, v) := by
  induction entries generalizing place with
  | nil => rfl
  | cons entry entries ih =>
    obtain ⟨name, component⟩ := entry
    rw [List.flatMap_cons, locatedFrom, List.filter_append, List.map_append, ih (place + 1)]
    congr 1
    rw [List.filter_map, List.map_map]
    cases component with
    | object inner =>
      -- What is below an object is at least one step away from it.
      have hbelow : (located (.object inner)).filter
          ((fun leaf : List Step × Value => decide (2 ≤ leaf.1.length)) ∘
            fun (steps, w) => (⟨place, name⟩ :: steps, w)) = located (.object inner) := by
        refine List.filter_eq_self.mpr fun (steps, w) hleaf => ?_
        obtain ⟨i, key, v, rest, -, rfl, -⟩ := (mem_locatedFrom inner).mp hleaf
        simp
      rw [hbelow]
      exact leavesOfEntries_eq inner 0 [sanitize name]
    | null | bool | number | text | list => rfl

/-- What components hold is what is found below them, with the names of the steps. -/
theorem componentLeaves_eq (components : Value) :
    componentLeaves components =
      (locatedLeaves components).map fun (steps, v) => (stepNames steps, v) :=
  flatMap_leavesOfEntries _ 0

/-- **What components declare.** The part of a style sheet for its components has one line for every
value that is no object, stands below a component that is an object and has a text; it has no other
line. The lines stand in the order of the document. Each names its property by the sanitized keys
from the component down to the value, joined by dashes, and holds the text. -/
theorem declared_leaves (sources : Sources) (varPrefix : String) :
    ∃ found : List (List Step × Value),
      (∀ steps v, (steps, v) ∈ found ↔ IsComponentLeaf sources.components steps v) ∧
      found.Pairwise (fun a b => a.1.map Step.place < b.1.map Step.place) ∧
      stylesheet sources varPrefix = String.intercalate "\n"
        ([":root \x7b"]
          ++ (tokenProperties sources varPrefix).map (fun p => Property.line p.name p.value)
          ++ found.filterMap (fun (steps, v) =>
            (componentText? (sources.meaning varPrefix) v).map fun text =>
              "  --" ++ varPrefix ++ "-component-"
                ++ String.intercalate "-" (steps.map fun s => sanitize s.key)
                ++ ": " ++ text ++ ";")
          ++ ["\x7d", ""]) := by
  refine ⟨locatedLeaves sources.components, fun _ _ => mem_locatedLeaves,
    (pairwise_locatedFrom _ 0).filter _, ?_⟩
  have hlines : (sources.componentDeclarations varPrefix).map (ComponentProperty.line varPrefix) =
      (locatedLeaves sources.components).filterMap fun (steps, v) =>
        (componentText? (sources.meaning varPrefix) v).map fun text =>
          "  --" ++ varPrefix ++ "-component-"
            ++ String.intercalate "-" (steps.map fun s => sanitize s.key)
            ++ ": " ++ text ++ ";" := by
    rw [Sources.componentDeclarations, allComponentProperties_eq, componentLeaves_eq,
      List.filterMap_map, List.map_filterMap]
    refine List.filterMap_congr fun (steps, v) _ => ?_
    rw [Function.comp_apply, leafProperty?, Option.map_map]
    refine congrArg (Option.map · _) (funext fun text => ?_)
    have hdashes : "  --" = "  " ++ "--" := rfl
    simp only [Function.comp_apply, ComponentProperty.line, Property.line, stepNames, hdashes,
      String.append_assoc]
  rw [← hlines]
  rfl

end Downline.Token
