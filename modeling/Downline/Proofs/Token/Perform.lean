import Downline.Proofs.Token.Outcome
import Mathlib.Tactic.Choose

/-!
# What the operations of a library do

An operation works on a `World`: the bundles that the library has kept, and the files. `perform`
says what it answers and what it leaves behind. Each operation has one equation here, and nothing
else opens it.

A category is seen as the bundle that has been kept, and otherwise as what its file holds
(`World.sees`). Loading a category answers what is seen, and what a category is seen as is the same
before and after any category has been loaded (`sees_keep`). So the three loads of an export can be
told from the world in which it begins (`perform_exports`).
-/

namespace Downline.Token

open Files Json

/-- What a library works on: the bundles that it has kept, and the files. -/
structure World where
  shelf : Shelf
  files : Store

namespace Library

/-- What an operation answers, and the world that it leaves behind. -/
def perform {α : Type} (x : Run (StateM Store) α) (w : World) : Except Failure α × World :=
  let result := (x.run.run w.shelf).run w.files
  (result.1.1, ⟨result.1.2, result.2⟩)

section Perform

variable {α β : Type} (w : World)

@[simp] theorem perform_pure (a : α) : perform (pure a) w = (.ok a, w) := rfl

@[simp] theorem perform_throw (e : Failure) : perform (α := α) (throw e) w = (.error e, w) := rfl

@[simp] theorem perform_get : perform get w = (.ok w.shelf, w) := rfl

@[simp] theorem perform_modify (f : Shelf → Shelf) :
    perform (modify f) w = (.ok (), ⟨f w.shelf, w.files⟩) := rfl

@[simp] theorem perform_ask (action : StateM Store α) :
    perform (ask action) w =
      (.ok (action.run w.files).1, ⟨w.shelf, (action.run w.files).2⟩) := rfl

/-- An operation that fails is the last one. -/
theorem perform_bind (x : Run (StateM Store) α) (f : α → Run (StateM Store) β) :
    perform (x >>= f) w =
      match perform x w with
      | (.ok a, w') => perform (f a) w'
      | (.error e, w') => (.error e, w') := by
  unfold perform
  rw [ExceptT.run_bind, StateT.run_bind, StateT.run_bind]
  rcases (x.run.run w.shelf).run w.files with ⟨⟨r, shelf⟩, files⟩
  cases r <;> rfl

end Perform

variable (lib : Library)

/-! ## Reading -/

/-- The bundle of a category in its file. -/
def bundleIn (category : String) (files : Store) : Except Failure Bundle :=
  let path := lib.bundlePath category
  if (files.find? path).isSome then
    match files.readText? path with
    | none => .error (.operation .readBundle path)
    | some content => lib.bundleOfText category content
  else .error (.domain (.bundleNotFound category path))

/-- Reading answers what the file holds, and leaves everything as it is. -/
@[simp] theorem perform_readBundle (category : String) (w : World) :
    perform (lib.readBundle category) w = (lib.bundleIn category w.files, w) := by
  have houtcome := outcome_readBundle lib w.shelf w.files Store.lawful category
  exact congrArg (fun r => (r.answer, (⟨r.shelf, r.files⟩ : World))) houtcome

end Library

/-! ## Loading -/

namespace World

variable (lib : Library)

/-- What a category is seen as: the bundle that has been kept, otherwise what its file holds. -/
def sees (w : World) (category : String) : Except Failure Bundle :=
  match w.shelf.lookup category with
  | some b => .ok b
  | none => lib.bundleIn category w.files

/-- The world after a category has been loaded: a bundle that has been read is kept. -/
def keep (w : World) (category : String) : World :=
  match w.shelf.lookup category, lib.bundleIn category w.files with
  | none, .ok b => { w with shelf := (category, b) :: w.shelf }
  | _, _ => w

variable (w : World) (category : String)

@[simp] theorem files_keep : (w.keep lib category).files = w.files := by
  unfold keep
  split <;> rfl

/-- What is no bundle has not been kept, and its file holds none. -/
theorem of_sees_error {w : World} {category : String} {e : Failure}
    (h : w.sees lib category = .error e) :
    w.shelf.lookup category = none ∧ lib.bundleIn category w.files = .error e := by
  unfold sees at h
  split at h
  next => cases h
  next hnone => exact ⟨hnone, h⟩

/-- Loading keeps what is seen, and touches no other category. -/
theorem lookup_keep (k : String) :
    (w.keep lib category).shelf.lookup k =
      if k = category then (w.sees lib category).toOption else w.shelf.lookup k := by
  unfold keep sees
  by_cases hk : k = category
  · subst hk
    rw [if_pos rfl]
    cases hkept : w.shelf.lookup k with
    | some b => exact hkept
    | none => cases lib.bundleIn k w.files <;> simp [hkept, Except.toOption]
  · have hne : (k == category) = false := beq_eq_false_iff_ne.mpr hk
    rw [if_neg hk]
    split
    next => rw [List.lookup_cons, hne]
    next => rfl

/-- Loading changes nothing in what categories are seen as. -/
theorem sees_keep (k : String) : (w.keep lib category).sees lib k = w.sees lib k := by
  rw [sees, files_keep, lookup_keep]
  by_cases hk : k = category
  · subst hk
    rw [if_pos rfl]
    cases hsees : w.sees lib k with
    | ok b => rfl
    | error e => exact (of_sees_error lib hsees).2
  · rw [if_neg hk, sees]

theorem keep_of_error {e : Failure} (h : w.sees lib category = .error e) :
    w.keep lib category = w := by
  obtain ⟨hnone, herror⟩ := of_sees_error lib h
  rw [keep, hnone, herror]

/-- The world after some categories have been loaded one after the other. -/
def keepAll (w : World) (categories : List String) : World :=
  categories.foldl (keep lib) w

@[simp] theorem files_keepAll (categories : List String) :
    (w.keepAll lib categories).files = w.files := by
  induction categories generalizing w with
  | nil => rfl
  | cons c cs ih => rw [keepAll, List.foldl_cons, ← keepAll, ih, files_keep]

theorem lookup_keepAll (categories : List String) (k : String) :
    (w.keepAll lib categories).shelf.lookup k =
      if k ∈ categories then (w.sees lib k).toOption else w.shelf.lookup k := by
  induction categories generalizing w with
  | nil => rfl
  | cons c cs ih =>
    rw [keepAll, List.foldl_cons, ← keepAll, ih, sees_keep, lookup_keep]
    by_cases hcs : k ∈ cs
    · rw [if_pos hcs, if_pos (List.mem_cons_of_mem c hcs)]
    · rw [if_neg hcs]
      by_cases hc : k = c
      · subst hc
        rw [if_pos rfl, if_pos List.mem_cons_self]
      · rw [if_neg hc, if_neg (List.not_mem_cons_of_ne_of_not_mem hc hcs)]

end World

namespace Library

variable (lib : Library) (w : World)

@[simp] theorem perform_load (category : String) :
    perform (lib.load category) w = (w.sees lib category, w.keep lib category) := by
  simp only [load, perform_bind, perform_get, World.sees, World.keep]
  cases w.shelf.lookup category with
  | some b => simp only [perform_pure]
  | none =>
    simp only [perform_bind, perform_readBundle]
    cases lib.bundleIn category w.files <;> simp only [perform_modify, perform_pure]

/-! ## Tokens and exports -/

/-- The value that a dotted path names in a bundle. -/
def valueIn (b : Bundle) (path : String) : Except Failure Value :=
  match b.get path with
  | .error fault => .error (.domain fault)
  | .ok v => .ok v

@[simp] theorem perform_token (category path : String) :
    perform (lib.token category path) w =
      (w.sees lib category >>= (valueIn · path), w.keep lib category) := by
  simp only [token, perform_bind, perform_load]
  cases w.sees lib category with
  | error e => rfl
  | ok b =>
    simp only [bind, Except.bind, valueIn]
    cases b.get path <;> rfl

/-- The categories that the exports are rendered from, in the order in which they are loaded. -/
def exportCategories : List String := ["colors", "typography", "components"]

/-- The exports of what the categories are seen as. -/
def exportsOf (sees : String → Except Failure Bundle) : Except Failure Exports := do
  let colors ← sees "colors"
  let typography ← sees "typography"
  let components ← sees "components"
  let sources : Sources := ⟨colors.document, typography.document, components.document⟩
  return ⟨stylesheet sources lib.varPrefix, themeModule (themeExtension sources lib.varPrefix)⟩

/-- The categories up to the first that is no bundle, which is the last one to be asked for. -/
def upToFailure (sees : String → Except Failure Bundle) : List String → List String
  | [] => []
  | c :: cs =>
    match sees c with
    | .ok _ => c :: upToFailure sees cs
    | .error _ => [c]

/-- An export loads its categories up to the first that is no bundle. -/
@[simp] theorem perform_exports :
    perform lib.exports w =
      (lib.exportsOf (w.sees lib), w.keepAll lib (upToFailure (w.sees lib) exportCategories)) := by
  simp only [exports, perform_bind, perform_load, exportsOf, exportCategories, upToFailure]
  cases w.sees lib "colors" with
  | error e => rfl
  | ok colors =>
    simp only [World.sees_keep]
    cases w.sees lib "typography" with
    | error e => rfl
    | ok typography =>
      simp only [World.sees_keep]
      cases w.sees lib "components" <;> rfl

/-- There are exports of bundles only, and the first category that is no bundle says why there are
none. -/
theorem exportsOf_cases (sees : String → Except Failure Bundle) :
    (∃ texts, lib.exportsOf sees = .ok texts ∧
      ∀ category ∈ exportCategories, ∃ b, sees category = .ok b) ∨
    ∃ before category later e, lib.exportsOf sees = .error e ∧
      exportCategories = before ++ category :: later ∧
      upToFailure sees exportCategories = before ++ [category] ∧ sees category = .error e ∧
      ∀ k ∈ before, ∃ b, sees k = .ok b := by
  simp only [exportsOf, exportCategories, upToFailure]
  cases hcolors : sees "colors" with
  | error e => exact .inr ⟨[], _, _, e, rfl, rfl, rfl, hcolors, by simp⟩
  | ok colors =>
    cases htypography : sees "typography" with
    | error e => exact .inr ⟨["colors"], _, _, e, rfl, rfl, rfl, htypography, by simp [hcolors]⟩
    | ok typography =>
      cases hcomponents : sees "components" with
      | error e =>
        exact .inr ⟨["colors", "typography"], _, _, e, rfl, rfl, rfl, hcomponents,
          by simp [hcolors, htypography]⟩
      | ok components =>
        exact .inl ⟨_, rfl, by simp [hcolors, htypography, hcomponents]⟩

theorem exists_of_exportsOf_error {sees : String → Except Failure Bundle} {e : Failure}
    (h : lib.exportsOf sees = .error e) :
    ∃ before category later, exportCategories = before ++ category :: later ∧
      upToFailure sees exportCategories = before ++ [category] ∧ sees category = .error e ∧
      ∀ k ∈ before, ∃ b, sees k = .ok b := by
  rcases lib.exportsOf_cases sees with ⟨_, htexts, -⟩ | ⟨before, category, later, e', he, hrest⟩
  · cases h.symm.trans htexts
  · cases h.symm.trans he
    exact ⟨before, category, later, hrest⟩

theorem exists_of_exportsOf_ok {sees : String → Except Failure Bundle} {texts : Exports}
    (h : lib.exportsOf sees = .ok texts) :
    ∀ category ∈ exportCategories, ∃ b, sees category = .ok b := by
  rcases lib.exportsOf_cases sees with ⟨_, -, hbundles⟩ | ⟨_, _, _, _, he, -⟩
  · exact hbundles
  · cases h.symm.trans he

/-! ## Writing -/

/-- An operation that has to do with files alone: what is kept is neither looked at nor changed. -/
def OnFiles {α : Type} (x : Run (StateM Store) α) : Prop :=
  ∃ f : Store → Except Failure α × Store,
    ∀ w, perform x w = ((f w.files).1, ⟨w.shelf, (f w.files).2⟩)

section OnFiles

variable {α β : Type}

theorem onFiles_pure (a : α) : OnFiles (pure a) := ⟨fun s => (.ok a, s), fun _ => rfl⟩

theorem onFiles_throw (e : Failure) : OnFiles (α := α) (throw e) :=
  ⟨fun s => (.error e, s), fun _ => rfl⟩

theorem onFiles_ask (action : StateM Store α) : OnFiles (ask action) :=
  ⟨fun s => (.ok (action.run s).1, (action.run s).2), fun _ => rfl⟩

theorem OnFiles.bind {x : Run (StateM Store) α} {f : α → Run (StateM Store) β} (hx : OnFiles x)
    (hf : ∀ a, OnFiles (f a)) : OnFiles (x >>= f) := by
  obtain ⟨g, hg⟩ := hx
  choose k hk using hf
  refine ⟨fun s => match g s with
    | (.ok a, s') => k a s'
    | (.error e, s') => (.error e, s'), fun w => ?_⟩
  simp only [perform_bind, hg]
  rcases g w.files with ⟨r, s'⟩
  cases r with
  | error e => rfl
  | ok a => exact hk a ⟨w.shelf, s'⟩

/-- What such an operation does can be told from an empty shelf. -/
theorem OnFiles.perform_eq {x : Run (StateM Store) α} (hx : OnFiles x) (w : World) :
    perform x w = ((perform x ⟨[], w.files⟩).1, ⟨w.shelf, (perform x ⟨[], w.files⟩).2.files⟩) := by
  obtain ⟨f, hf⟩ := hx
  rw [hf w, hf ⟨[], w.files⟩]

end OnFiles

theorem onFiles_writeExport (path content : String) :
    OnFiles (writeExport (m := StateM Store) path content) := by
  refine (onFiles_ask _).bind fun made => ?_
  have hwrite : OnFiles (do
      if !(← ask (FileAccess.writeText (m := StateM Store) path content)) then
        throw (.operation .writeExport path)) := by
    refine (onFiles_ask _).bind fun written => ?_
    cases written with
    | false => exact onFiles_throw _
    | true => exact onFiles_pure _
  cases made with
  | false => exact (onFiles_throw _).bind fun _ => hwrite
  | true => exact hwrite

/-- Writes the texts of both exports into a directory. -/
def writeTexts (directory : String) (texts : Exports) : Run (StateM Store) (List String) := do
  let cssPath := join directory cssFile
  let tailwindPath := join directory tailwindFile
  writeExport cssPath texts.css
  writeExport tailwindPath texts.tailwind
  return [cssPath, tailwindPath]

theorem onFiles_writeTexts (directory : String) (texts : Exports) :
    OnFiles (writeTexts directory texts) :=
  (onFiles_writeExport _ _).bind fun _ => (onFiles_writeExport _ _).bind fun _ => onFiles_pure _

theorem writeExports_eq (directory : String) :
    lib.writeExports (m := StateM Store) directory = lib.exports >>= writeTexts directory := rfl

end Library

end Downline.Token
