import Downline.Proofs.Token.Perform

/-!
# A library over time

A library is called again and again while its files are changed behind its back. A `Diary` has no
shelf. It notes which categories were asked for and what the files held at that time, and a
category is seen as the bundle that was in its file when the file was first found to hold one; until
then it is seen as what the file holds now (`Diary.sees`). Over any calls and any changes to the
files, what a library answers is what the diary tells (`answers_eq_told`).

The step from one call to the next is `run_eq`: a call answers by what its world sees, and the
categories that it asks for are kept. The diary notes the same categories (`Agrees.call`).
-/

namespace Downline.Token

open Files Json Library

/-- A call of a library. -/
inductive Call where
  | load (category : String)
  | token (category path : String)
  | exports
  | writeExports (directory : String)

/-- What a call answers, by the kind of call. -/
inductive Answer where
  | bundle (result : Except Failure Bundle)
  | value (result : Except Failure Value)
  | texts (result : Except Failure Exports)
  | paths (result : Except Failure (List String))

/-- What happens to a library: it is called, or its files are changed, in any way whatever. -/
inductive Event where
  | call (c : Call)
  | edit (change : Store → Store)

variable (lib : Library)

/-! ## Calls -/

namespace Call

/-- The library performs a call. -/
def run : Call → World → Answer × World
  | load category, w => (perform (lib.load category) w).map .bundle id
  | token category path, w => (perform (lib.token category path) w).map .value id
  | exports, w => (perform lib.exports w).map .texts id
  | writeExports directory, w => (perform (lib.writeExports directory) w).map .paths id

/-- The categories that a call asks for, if categories are seen in the given way. -/
def asks (sees : String → Except Failure Bundle) : Call → List String
  | load category => [category]
  | token category _ => [category]
  | exports => upToFailure sees exportCategories
  | writeExports _ => upToFailure sees exportCategories

/-- The answer to a call if categories are seen in the given way, and the files after it. -/
def answer (sees : String → Except Failure Bundle) : Call → Store → Answer × Store
  | load category, s => (.bundle (sees category), s)
  | token category path, s => (.value (sees category >>= (valueIn · path)), s)
  | exports, s => (.texts (lib.exportsOf sees), s)
  | writeExports directory, s =>
    match lib.exportsOf sees with
    | .error e => (.paths (.error e), s)
    | .ok texts =>
      let written := perform (writeTexts directory texts) ⟨[], s⟩
      (.paths written.1, written.2.files)

/-- **A call answers by what its world sees, and keeps the categories that it asks for.** -/
theorem run_eq (c : Call) (w : World) :
    c.run lib w =
      ((c.answer lib (w.sees lib) w.files).1,
        ⟨(w.keepAll lib (c.asks (w.sees lib))).shelf,
          (c.answer lib (w.sees lib) w.files).2⟩) := by
  have hkept : ∀ ks, (⟨(w.keepAll lib ks).shelf, w.files⟩ : World) = w.keepAll lib ks := by
    intro ks
    rw [← w.files_keepAll lib ks]
  cases c with
  | load category =>
    rw [run, perform_load]
    exact congrArg _ (hkept [category]).symm
  | token category path =>
    rw [run, perform_token]
    exact congrArg _ (hkept [category]).symm
  | exports =>
    rw [run, perform_exports]
    exact congrArg _ (hkept _).symm
  | writeExports directory =>
    rw [run, writeExports_eq, perform_bind, perform_exports, answer, asks]
    cases lib.exportsOf (w.sees lib) with
    | error e => exact congrArg _ (hkept _).symm
    | ok texts =>
      simp only [(onFiles_writeTexts directory texts).perform_eq (w.keepAll lib _),
        World.files_keepAll]
      rfl

end Call

/-- The answers of a library to the calls among some events, and the world that these leave
behind. -/
def runAll : World → List Event → List Answer × World
  | w, [] => ([], w)
  | w, .edit change :: es => runAll { w with files := change w.files } es
  | w, .call c :: es =>
    let (a, w) := c.run lib w
    (runAll w es).map (a :: ·) id

/-! ## The diary -/

theorem toOption_eq_some_iff {α : Type} {r : Except Failure α} {a : α} :
    r.toOption = some a ↔ r = .ok a := by
  cases r <;> simp [Except.toOption]

theorem toOption_eq_none_iff {α : Type} {r : Except Failure α} :
    r.toOption = none ↔ ∃ e, r = .error e := by
  cases r <;> simp [Except.toOption]

/-- Which categories were asked for, each with the files at that time, earliest first. -/
abbrev Visits := List (String × Store)

/-- The bundle of a category in its file at the first time that it was asked for and its file held
one. -/
def firstBundle? (visits : Visits) (category : String) : Option Bundle :=
  visits.findSome? fun visit =>
    if visit.1 = category then (lib.bundleIn category visit.2).toOption else none

theorem firstBundle?_append (visits later : Visits) (k : String) :
    firstBundle? lib (visits ++ later) k =
      (firstBundle? lib visits k).or (firstBundle? lib later k) :=
  List.findSome?_append

/-- Categories that were asked for at one time. -/
theorem firstBundle?_map (categories : List String) (files : Store) (k : String) :
    firstBundle? lib (categories.map (·, files)) k =
      if k ∈ categories then (lib.bundleIn k files).toOption else none := by
  induction categories with
  | nil => rfl
  | cons c cs ih =>
    rw [List.map_cons, ← List.singleton_append, firstBundle?_append, ih]
    by_cases hc : c = k
    · subst hc
      rw [firstBundle?, List.findSome?_singleton, if_pos rfl, if_pos List.mem_cons_self]
      split
      · exact Option.or_self
      · exact Option.or_none
    · rw [firstBundle?, List.findSome?_singleton, if_neg hc, Option.none_or]
      by_cases hcs : k ∈ cs
      · rw [if_pos hcs, if_pos (List.mem_cons_of_mem c hcs)]
      · rw [if_neg hcs, if_neg (List.not_mem_cons_of_ne_of_not_mem (Ne.symm hc) hcs)]

theorem firstBundle?_eq_some_iff {visits : Visits} {category : String} {b : Bundle} :
    firstBundle? lib visits category = some b ↔
      ∃ before files later, visits = before ++ (category, files) :: later ∧
        lib.bundleIn category files = .ok b ∧
        ∀ visit ∈ before, visit.1 = category → ∃ e, lib.bundleIn category visit.2 = .error e := by
  rw [firstBundle?, List.findSome?_eq_some_iff]
  constructor
  · rintro ⟨before, ⟨c, files⟩, later, rfl, hfound, hbefore⟩
    split at hfound
    next hc =>
      refine ⟨before, files, later, by rw [← hc], ?_, fun visit hvisit hsame => ?_⟩
      · exact toOption_eq_some_iff.mp hfound
      · have hnone := hbefore visit hvisit
        rw [if_pos hsame] at hnone
        exact toOption_eq_none_iff.mp hnone
    next => cases hfound
  · rintro ⟨before, files, later, rfl, hfound, hbefore⟩
    refine ⟨before, (category, files), later, rfl, ?_, fun visit hvisit => ?_⟩
    · rw [if_pos rfl]
      exact toOption_eq_some_iff.mpr hfound
    · split
      next hsame => exact toOption_eq_none_iff.mpr (hbefore visit hvisit hsame)
      next => rfl

/-- What a library was asked for so far, and the files as they are now. -/
structure Diary where
  visits : Visits
  files : Store

namespace Diary

/-- What a category is seen as, going by the diary: the bundle that was found first, otherwise what
its file holds now. -/
def sees (d : Diary) (category : String) : Except Failure Bundle :=
  match firstBundle? lib d.visits category with
  | some b => .ok b
  | none => lib.bundleIn category d.files

theorem toOption_sees (d : Diary) (category : String) :
    (d.sees lib category).toOption =
      (firstBundle? lib d.visits category).or (lib.bundleIn category d.files).toOption := by
  rw [sees]
  cases firstBundle? lib d.visits category <;> rfl

/-- The answer to a call, going by the diary, and the diary after it. -/
def tell (d : Diary) (c : Call) : Answer × Diary :=
  let (a, files) := c.answer lib (d.sees lib) d.files
  (a, ⟨d.visits ++ (c.asks (d.sees lib)).map (·, d.files), files⟩)

/-- The answers to the calls among some events, going by the diary. -/
def tellAll : Diary → List Event → List Answer × Diary
  | d, [] => ([], d)
  | d, .edit change :: es => tellAll { d with files := change d.files } es
  | d, .call c :: es =>
    let (a, d) := d.tell lib c
    (tellAll d es).map (a :: ·) id

end Diary

/-! ## They agree -/

/-- A world holds what a diary tells of it. -/
structure Agrees (d : Diary) (w : World) : Prop where
  files : w.files = d.files
  /-- What is kept is what was found first. -/
  kept : ∀ category, w.shelf.lookup category = firstBundle? lib d.visits category

namespace Agrees

variable {lib} {d : Diary} {w : World}

theorem sees_eq (h : Agrees lib d w) : w.sees lib = d.sees lib := by
  funext category
  rw [World.sees, h.kept, h.files]
  rfl

/-- A call answers what the diary tells, and the diary after it tells of the world after it. -/
theorem call (h : Agrees lib d w) (c : Call) :
    (c.run lib w).1 = (d.tell lib c).1 ∧ Agrees lib (d.tell lib c).2 (c.run lib w).2 := by
  rw [c.run_eq, h.sees_eq, h.files]
  refine ⟨rfl, rfl, fun k => ?_⟩
  rw [World.lookup_keepAll, h.sees_eq, Diary.toOption_sees, h.kept, Diary.tell,
    firstBundle?_append, firstBundle?_map]
  split
  · rfl
  · exact Option.or_none.symm

theorem edit (h : Agrees lib d w) (change : Store → Store) :
    Agrees lib { d with files := change d.files } { w with files := change w.files } :=
  ⟨congrArg change h.files, h.kept⟩

theorem runAll (h : Agrees lib d w) (es : List Event) :
    (Token.runAll lib w es).1 = (d.tellAll lib es).1 ∧
      Agrees lib (d.tellAll lib es).2 (Token.runAll lib w es).2 := by
  induction es generalizing d w with
  | nil => exact ⟨rfl, h⟩
  | cons e es ih =>
    cases e with
    | edit change => exact ih (h.edit change)
    | call c =>
      obtain ⟨hanswer, hafter⟩ := h.call c
      obtain ⟨hanswers, hlast⟩ := ih hafter
      exact ⟨congrArg₂ List.cons hanswer hanswers, hlast⟩

end Agrees

/-! ## What a call keeps -/

/-- What operations keep, in a world: nothing is kept of what has failed, and nothing is lost. -/
structure Careful (w : World) : Prop where
  /-- A load that fails changes nothing. -/
  failed : ∀ {category e}, (perform (lib.load category) w).1 = .error e →
    (perform (lib.load category) w).2 = w
  /-- A load keeps nothing of other categories. -/
  apart : ∀ {category k}, k ≠ category →
    (perform (lib.load category) w).2.shelf.lookup k = w.shelf.lookup k ∧
      (perform (lib.load category) w).2.sees lib k = w.sees lib k
  /-- An export that fails does so at the first of its categories that is no bundle. It keeps those
  before that one, and only these. -/
  begun : ∀ {e}, (perform lib.exports w).1 = .error e →
    ∃ before category later, exportCategories = before ++ category :: later ∧
      w.sees lib category = .error e ∧
      (∀ k ∈ before, ∃ b, w.sees lib k = .ok b ∧
        (perform lib.exports w).2.shelf.lookup k = some b) ∧
      ∀ k ∉ before, (perform lib.exports w).2.shelf.lookup k = w.shelf.lookup k
  /-- Whether or not the exports can be written, what is kept is what rendering them keeps. -/
  written : ∀ directory, (perform (lib.writeExports directory) w).2.shelf =
    (perform lib.exports w).2.shelf

theorem careful (w : World) : Careful lib w where
  failed := by
    intro category e h
    rw [perform_load] at h ⊢
    exact w.keep_of_error lib category h
  apart := by
    intro category k hk
    rw [perform_load, World.lookup_keep, if_neg hk]
    exact ⟨rfl, w.sees_keep lib category k⟩
  begun := by
    intro e h
    rw [perform_exports] at h ⊢
    obtain ⟨before, category, later, hall, hasked, hfailed, hbefore⟩ :=
      exists_of_exportsOf_error lib h
    rw [hasked]
    refine ⟨before, category, later, hall, hfailed, fun k hk => ?_, fun k hk => ?_⟩
    · obtain ⟨b, hb⟩ := hbefore k hk
      refine ⟨b, hb, ?_⟩
      rw [World.lookup_keepAll, if_pos (List.mem_append_left _ hk), hb]
      rfl
    · rw [World.lookup_keepAll]
      split
      next hmem =>
        obtain rfl := List.mem_singleton.mp ((List.mem_append.mp hmem).resolve_left hk)
        rw [hfailed, (World.of_sees_error lib hfailed).1]
        rfl
      next => rfl
  written := by
    intro directory
    rw [writeExports_eq, perform_bind]
    cases h : perform lib.exports w with
    | mk r w' =>
      cases r with
      | error e => rfl
      | ok texts =>
        exact congrArg (·.2.shelf) ((onFiles_writeTexts directory texts).perform_eq w')

/-- **A library answers what its diary tells**, over any calls and any changes to the files. So a
category is kept exactly if it was found when it was asked for, as it was found first; from then on
it is seen as that, and before as what its file holds at the time. -/
theorem answers_eq_told (files : Store) (es : List Event) :
    (runAll lib ⟨[], files⟩ es).1 = (Diary.tellAll lib ⟨[], files⟩ es).1 ∧
      (runAll lib ⟨[], files⟩ es).2.files = (Diary.tellAll lib ⟨[], files⟩ es).2.files ∧
      (∀ category, (runAll lib ⟨[], files⟩ es).2.sees lib category =
        (Diary.tellAll lib ⟨[], files⟩ es).2.sees lib category) ∧
      (∀ category b, (runAll lib ⟨[], files⟩ es).2.shelf.lookup category = some b ↔
        ∃ before s later,
          (Diary.tellAll lib ⟨[], files⟩ es).2.visits = before ++ (category, s) :: later ∧
          lib.bundleIn category s = .ok b ∧
          ∀ visit ∈ before, visit.1 = category → ∃ e, lib.bundleIn category visit.2 = .error e) ∧
      Careful lib (runAll lib ⟨[], files⟩ es).2 := by
  have hstart : Agrees lib ⟨[], files⟩ ⟨[], files⟩ := ⟨rfl, fun _ => rfl⟩
  obtain ⟨hanswers, hagrees⟩ := hstart.runAll es
  refine ⟨hanswers, hagrees.files, congrFun hagrees.sees_eq, fun category b => ?_, careful lib _⟩
  rw [hagrees.kept, firstBundle?_eq_some_iff]

end Downline.Token
