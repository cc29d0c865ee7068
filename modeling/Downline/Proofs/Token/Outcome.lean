import Downline.Proofs.Files.Lawful
import Downline.Token.Library

/-!
# What comes of operations on a library

An operation on a library runs on the bundles that it has kept and on files. Nothing is known of the
files but what the laws of a `View` say. `outcome` is what an operation answers and what it leaves
behind; here it is told of reading a bundle and of loading one.

A category is loaded as the bundle that has been kept, and otherwise as what its file holds
(`loaded_eq`). Loading changes no file, and what categories are loaded as is the same afterwards
(`exists_outcome_load`).
-/

namespace Downline.Token

open Files Json

namespace Library

/-! ## Runs -/

/-- What an operation answers, and what it leaves behind. -/
structure Aftermath (σ α : Type) where
  answer : Except Failure α
  shelf : Shelf
  files : σ

section Outcome

variable {σ α β : Type}

/-- What comes of an operation on a library, whatever the operations on files run in. -/
def outcome (x : Run (StateM σ) α) (shelf : Shelf) (s : σ) : Aftermath σ α :=
  let result := (x.run.run shelf).run s
  ⟨result.1.1, result.1.2, result.2⟩

variable (shelf : Shelf) (s : σ)

@[simp] theorem outcome_pure (a : α) : outcome (pure a) shelf s = ⟨.ok a, shelf, s⟩ := rfl

@[simp] theorem outcome_throw (e : Failure) :
    outcome (α := α) (throw e) shelf s = ⟨.error e, shelf, s⟩ := rfl

@[simp] theorem outcome_get : outcome get shelf s = ⟨.ok shelf, shelf, s⟩ := rfl

@[simp] theorem outcome_modify (f : Shelf → Shelf) :
    outcome (modify f) shelf s = ⟨.ok (), f shelf, s⟩ := rfl

@[simp] theorem outcome_ask (action : StateM σ α) :
    outcome (ask action) shelf s = ⟨.ok (action.run s).1, shelf, (action.run s).2⟩ := rfl

theorem outcome_bind (x : Run (StateM σ) α) (f : α → Run (StateM σ) β) :
    outcome (x >>= f) shelf s =
      match outcome x shelf s with
      | ⟨.ok a, shelf', s'⟩ => outcome (f a) shelf' s'
      | ⟨.error e, shelf', s'⟩ => ⟨.error e, shelf', s'⟩ := by
  unfold outcome
  rw [ExceptT.run_bind, StateT.run_bind, StateT.run_bind]
  rcases (x.run.run shelf).run s with ⟨⟨r, shelf'⟩, s'⟩
  cases r <;> rfl

end Outcome

section Lawful

variable {σ φ : Type} [FileAccess (StateM σ)] {v : View σ φ}
variable (lib : Library) (shelf : Shelf) (s : σ)

/-! ## Reading and loading -/

/-- The bundle of a category in the text of its file. -/
def bundleOfText (category content : String) : Except Failure Bundle :=
  match Value.ofString? content with
  | none => .error (.operation .parseBundle (lib.bundlePath category))
  | some v =>
    match Bundle.ofValue category v with
    | .error fault => .error (.domain fault)
    | .ok b => .ok b

/-- The bundle of a category in its file, as far as the operations on files tell. -/
def found (category : String) : Except Failure Bundle :=
  let path := lib.bundlePath category
  if ((FileAccess.pathExists path : StateM σ Bool).run s).1 then
    match ((FileAccess.readText? path : StateM σ (Option String)).run s).1 with
    | none => .error (.operation .readBundle path)
    | some content => lib.bundleOfText category content
  else .error (.domain (.bundleNotFound category path))

theorem outcome_readBundle (hv : v.Lawful) (category : String) :
    outcome (lib.readBundle category) shelf s = ⟨lib.found s category, shelf, s⟩ := by
  simp only [readBundle, outcome_bind, outcome_ask, hv.pathExists, found]
  split
  next =>
    simp only [outcome_bind, outcome_ask, hv.readText?]
    cases ((FileAccess.readText? (lib.bundlePath category) : StateM σ (Option String)).run s).1 with
    | none => simp only [outcome_throw]
    | some content =>
      simp only [bundleOfText]
      cases Value.ofString? content with
      | none => simp only [outcome_throw]
      | some d =>
        cases hd : Bundle.ofValue category d <;> simp only [hd, outcome_throw, outcome_pure]
  next => simp only [outcome_throw]

/-- What loading a category answers. -/
def loaded (category : String) : Except Failure Bundle :=
  (outcome (lib.load category) shelf s).answer

/-- A bundle that has been found is put on the shelf, and nothing else happens. -/
theorem outcome_load (hv : v.Lawful) (category : String) :
    outcome (lib.load category) shelf s =
      ⟨match shelf.lookup category with
        | some b => .ok b
        | none => lib.found s category,
        match shelf.lookup category, lib.found s category with
        | none, .ok b => (category, b) :: shelf
        | _, _ => shelf, s⟩ := by
  simp only [load, outcome_bind, outcome_get]
  cases shelf.lookup category with
  | some b => rfl
  | none =>
    simp only [outcome_bind, outcome_readBundle lib shelf s hv]
    cases lib.found s category <;> rfl

theorem loaded_eq (hv : v.Lawful) (category : String) :
    lib.loaded shelf s category =
      match shelf.lookup category with
      | some b => .ok b
      | none => lib.found s category := by
  rw [loaded, outcome_load lib shelf s hv]

/-- Loading changes nothing in what categories are loaded as, and changes no file. -/
theorem exists_outcome_load (hv : v.Lawful) (category : String) :
    ∃ shelf', outcome (lib.load category) shelf s = ⟨lib.loaded shelf s category, shelf', s⟩ ∧
      ∀ k, lib.loaded shelf' s k = lib.loaded shelf s k := by
  rw [outcome_load lib shelf s hv, loaded_eq lib shelf s hv]
  refine ⟨_, rfl, fun k => ?_⟩
  split
  next b hkept hfound =>
    rw [loaded_eq lib _ s hv, loaded_eq lib shelf s hv, List.lookup_cons]
    by_cases hk : k = category
    · rw [hk, beq_self_eq_true, hkept]
      exact hfound.symm
    · rw [beq_eq_false_iff_ne.mpr hk]
  next => rfl

end Lawful

end Library

end Downline.Token
