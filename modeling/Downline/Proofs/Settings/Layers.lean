import Downline.Files.Store
import Downline.Settings.Load

/-!
# What decides a setting

Settings come from four sources: the environment, the local file of a project, the global file and
the defaults. A file is looked at one key at a time (`textIn`, `shapeIn`), so that what it says of
one setting hangs on no other. Loading fails exactly if a source makes no sense. Otherwise every
setting is what the highest source says that specifies it (`load_decides`).

Loading reads two files and then the environment, and each of the three may be the last step. What
a step does is told with the condition under which it goes on (`Settles`), and the steps are put
together by `Settles.bind`.
-/

namespace Downline.Settings

open Files Toml

/-- The first of some specifications that there is, or else a default. -/
def highest {α : Type} (specified : List (Option α)) (fallback : α) : α :=
  (specified.findSome? id).getD fallback

theorem highest_three {α : Type} (first second third : Option α) (fallback : α) :
    highest [first, second, third] fallback = first.getD (second.getD (third.getD fallback)) := by
  cases first <;> cases second <;> cases third <;> rfl

/-! ## Documents -/

section Entries

variable (entries : List (String × Value))

/-- The text under a key. -/
def textUnder (key : String) : Option String := (Value.find? entries key).bind Value.text?

/-- The shape of trees that entries name. -/
def shapeUnder : Option TreeType := (Value.find? entries "tree_type").bind treeTypeOf?

/-- The keys under which a text is expected. -/
def textKeys : List String := ["tokens_dir", "dist_dir", "var_prefix"]

/-- Entries that make sense as settings. -/
structure Meaningful : Prop where
  texts : ∀ key ∈ textKeys, ∀ v, Value.find? entries key = some v → v.text?.isSome
  shape : ∀ v, Value.find? entries "tree_type" = some v → (treeTypeOf? v).isSome

/-- The layer that entries specify, key by key. -/
def layerUnder : Layer :=
  ⟨textUnder entries "tokens_dir", textUnder entries "dist_dir", textUnder entries "var_prefix",
    shapeUnder entries⟩

variable {entries}

/-- A field is read if there is no value, or one that means something. -/
theorem textField?_eq_some_iff {key : String} {t : Option String} :
    textField? entries key = some t ↔
      (∀ v, Value.find? entries key = some v → v.text?.isSome) ∧ textUnder entries key = t := by
  unfold textField? textUnder
  cases Value.find? entries key with
  | none => simp
  | some v => cases h : v.text? <;> simp [h]

theorem treeTypeField?_eq_some_iff {t : Option TreeType} :
    treeTypeField? entries "tree_type" = some t ↔
      (∀ v, Value.find? entries "tree_type" = some v → (treeTypeOf? v).isSome) ∧
        shapeUnder entries = t := by
  unfold treeTypeField? shapeUnder
  cases Value.find? entries "tree_type" with
  | none => simp
  | some v => cases h : treeTypeOf? v <;> simp [h]

theorem ofEntries?_eq_some_iff {l : Layer} :
    Layer.ofEntries? entries = some l ↔ Meaningful entries ∧ layerUnder entries = l := by
  simp only [Layer.ofEntries?, Option.bind_eq_bind, Option.bind_eq_some_iff,
    textField?_eq_some_iff, treeTypeField?_eq_some_iff, Option.pure_def, Option.some.injEq]
  constructor
  · rintro ⟨_, ⟨htokens, rfl⟩, _, ⟨hdist, rfl⟩, _, ⟨hvar, rfl⟩, _, ⟨hshape, rfl⟩, rfl⟩
    refine ⟨⟨fun key hkey => ?_, hshape⟩, rfl⟩
    simp only [textKeys, List.mem_cons, List.not_mem_nil, or_false] at hkey
    rcases hkey with rfl | rfl | rfl
    · exact htokens
    · exact hdist
    · exact hvar
  · rintro ⟨⟨htexts, hshape⟩, rfl⟩
    exact ⟨_, ⟨htexts _ (by simp [textKeys]), rfl⟩, _, ⟨htexts _ (by simp [textKeys]), rfl⟩, _,
      ⟨htexts _ (by simp [textKeys]), rfl⟩, _, ⟨hshape, rfl⟩, rfl⟩

end Entries

/-! ## Files -/

section Files

variable (s : Store) (path : Option String)

/-- The entries of the document in a file; none if there is no file. -/
def entriesIn : List (String × Value) :=
  ((path.bind s.readText?).bind readDocument?).getD []

/-- The text that a file has under a key. -/
def textIn (key : String) : Option String := textUnder (entriesIn s path) key

/-- The shape of trees that a file names. -/
def shapeIn : Option TreeType := shapeUnder (entriesIn s path)

/-- A file is in order if it is not there, or if it can be read and is a document whose entries make
sense as settings. -/
def InOrder : Prop :=
  ∀ p, path = some p → (s.find? p).isSome →
    ∃ content entries, s.readText? p = some content ∧ readDocument? content = some entries ∧
      Meaningful entries

end Files

/-! ## Steps -/

variable {s : Store}

/-- A step of loading gives a result and leaves the files alone if a condition holds, and otherwise
fails on account of the settings. -/
def Settles {α : Type} (x : ExceptT Failure (StateM Store) α) (s : Store) (goesOn : Prop) (a : α) :
    Prop :=
  (goesOn ∧ x.run.run s = (.ok a, s)) ∨
    (¬ goesOn ∧ ∃ fault, x.run.run s = (.error (.config fault), s))

/-- A step that fails is the last one. -/
theorem run_bind {α β : Type} (x : ExceptT Failure (StateM Store) α)
    (f : α → ExceptT Failure (StateM Store) β) :
    (x >>= f).run.run s =
      match x.run.run s with
      | (.ok a, s') => (f a).run.run s'
      | (.error e, s') => (.error e, s') := by
  rw [ExceptT.run_bind, StateT.run_bind]
  rcases x.run.run s with ⟨r, s'⟩
  cases r <;> rfl

theorem Settles.bind {α β : Type} {x : ExceptT Failure (StateM Store) α}
    {f : α → ExceptT Failure (StateM Store) β} {p q : Prop} {a : α} {b : β} (hx : Settles x s p a)
    (hf : Settles (f a) s q b) : Settles (x >>= f) s (p ∧ q) b := by
  unfold Settles
  rw [run_bind]
  rcases hx with ⟨hp, hx⟩ | ⟨hp, fault, hx⟩
  · rcases hf with ⟨hq, hf⟩ | ⟨hq, fault, hf⟩
    · exact .inl ⟨⟨hp, hq⟩, by rw [hx]; exact hf⟩
    · exact .inr ⟨fun h => hq h.2, fault, by rw [hx]; exact hf⟩
  · exact .inr ⟨fun h => hp h.1, fault, by rw [hx]⟩

theorem settles_pure {α : Type} (a : α) : Settles (pure a) s True a := .inl ⟨trivial, rfl⟩

theorem Settles.congr {α : Type} {x : ExceptT Failure (StateM Store) α} {p q : Prop} {a : α}
    (h : Settles x s p a) (hpq : p ↔ q) : Settles x s q a := propext hpq ▸ h

/-- The layer of a file, or what is wrong with the file. -/
def layerOfFile (s : Store) (path : String) : Except Failure Layer :=
  if (s.find? path).isSome then
    match s.readText? path with
    | none => .error (.config (.unreadable path))
    | some content =>
      match Layer.ofToml? content with
      | none => .error (.config (.malformed path))
      | some l => .ok l
  else .ok .empty

theorem run_loadLayer (path : String) :
    (loadLayer (m := StateM Store) path).run.run s = (layerOfFile s path, s) := by
  have hexists : (liftM (FileAccess.pathExists (m := StateM Store) path) :
      ExceptT Failure (StateM Store) Bool).run.run s = (.ok (s.find? path).isSome, s) := rfl
  have hread : (liftM (FileAccess.readText? (m := StateM Store) path) :
      ExceptT Failure (StateM Store) (Option String)).run.run s = (.ok (s.readText? path), s) := rfl
  simp only [loadLayer, run_bind, hexists, layerOfFile]
  split
  next =>
    simp only [run_bind, hread]
    cases s.readText? path with
    | none => rfl
    | some content => cases h : Layer.ofToml? content <;> simp only [h] <;> rfl
  next => rfl

theorem layerUnder_nil : layerUnder [] = .empty := rfl

/-- A file that is in order settles its layer. -/
theorem settles_loadLayer (path : String) :
    Settles (loadLayer path) s (InOrder s (some path)) (layerUnder (entriesIn s (some path))) := by
  rw [Settles, run_loadLayer, layerOfFile]
  cases hfind : s.find? path with
  | none =>
    have hread : s.readText? path = none := by rw [Store.readText?, hfind]
    exact .inl ⟨by simp [InOrder, hfind], by simp [entriesIn, hread, layerUnder_nil]⟩
  | some e =>
    rw [if_pos Option.isSome_some]
    cases hread : s.readText? path with
    | none => exact .inr ⟨by simp [InOrder, hfind, hread], _, rfl⟩
    | some content =>
      cases hdoc : readDocument? content with
      | none =>
        have hlayer : Layer.ofToml? content = none := by rw [Layer.ofToml?, hdoc, Option.bind_none]
        simp only [hlayer]
        exact .inr ⟨by simp [InOrder, hfind, hread, hdoc], _, rfl⟩
      | some entries =>
        have hin : InOrder s (some path) ↔ Meaningful entries := by
          simp [InOrder, hfind, hread, hdoc]
        have hentries : entriesIn s (some path) = entries := by simp [entriesIn, hread, hdoc]
        have hlayer : Layer.ofToml? content = Layer.ofEntries? entries := by
          rw [Layer.ofToml?, hdoc, Option.bind_some]
        rw [hin, hentries]
        simp only [hlayer]
        cases hof : Layer.ofEntries? entries with
        | none =>
          refine .inr ⟨fun h => ?_, _, rfl⟩
          rw [ofEntries?_eq_some_iff.mpr ⟨h, rfl⟩] at hof
          cases hof
        | some l =>
          obtain ⟨hmeaningful, rfl⟩ := ofEntries?_eq_some_iff.mp hof
          exact .inl ⟨hmeaningful, rfl⟩

theorem inOrder_none : InOrder s none := by
  simp [InOrder]

/-- A file that there may be no path to settles its layer too. -/
theorem settles_loadLayerAt (path : Option String) :
    Settles (loadLayerAt path) s (InOrder s path) (layerUnder (entriesIn s path)) := by
  cases path with
  | none => exact (settles_pure (s := s) Layer.empty).congr (iff_of_true trivial inOrder_none)
  | some path => exact settles_loadLayer path

/-! ## The environment -/

/-- The environment is in order if the shape that it names, in lower case, is one of the two. -/
def EnvironmentInOrder (e : Environment) : Prop :=
  ∀ v, override? e "tree_type" = some v →
    String.ofList (Text.lower v.toList) = "unilevel" ∨
      String.ofList (Text.lower v.toList) = "binary"

/-- The shape that the environment names in any letter case. -/
def shapeOverride (e : Environment) : Option TreeType :=
  (override? e "tree_type").bind fun v => TreeType.ofName? (String.ofList (Text.lower v.toList))

theorem ofName?_isSome_iff {name : String} :
    (TreeType.ofName? name).isSome ↔ name = "unilevel" ∨ name = "binary" := by
  unfold TreeType.ofName?
  by_cases hu : name = "unilevel"
  · simp [hu]
  · by_cases hb : name = "binary" <;> simp [hu, hb]

/-- The layer that the environment specifies if it is in order. -/
def environmentLayer (e : Environment) : Layer :=
  ⟨override? e "tokens_dir", override? e "dist_dir", override? e "var_prefix", shapeOverride e⟩

/-- The environment gives a layer exactly if it is in order. -/
theorem ofEnvironment_cases (e : Environment) :
    (EnvironmentInOrder e ∧ Layer.ofEnvironment e = .ok (environmentLayer e)) ∨
      (¬ EnvironmentInOrder e ∧ ∃ fault, Layer.ofEnvironment e = .error fault) := by
  unfold EnvironmentInOrder Layer.ofEnvironment treeTypeOverride environmentLayer shapeOverride
  cases override? e "tree_type" with
  | none => exact .inl ⟨by simp, rfl⟩
  | some v =>
    simp only [Option.some.injEq, forall_eq', ← ofName?_isSome_iff, Option.bind_some]
    cases TreeType.ofName? (String.ofList (Text.lower v.toList)) with
    | none => exact .inr ⟨by simp, _, rfl⟩
    | some t => exact .inl ⟨rfl, rfl⟩

/-! ## All sources -/

/-- A path as it is seen from a project, or from nowhere. -/
def seenFrom (project : Option String) (path : String) : String :=
  match project with
  | none => path
  | some directory => join directory path

/-- What the sources make of a setting that is a path. Those of the local file and the default are
seen from the project, the others stand as they are written. -/
def pathFrom (e : Environment) (project : Option String) (s : Store) (key fallback : String) :
    String :=
  e.expand (highest
    [override? e key, (textIn s (project.map localPath) key).map (seenFrom project),
      textIn s (globalPath? e) key]
    (seenFrom project fallback))

/-- The settings that the sources decide, each for itself. -/
def decided (e : Environment) (project : Option String) (s : Store) : Settings where
  tokensDir := pathFrom e project s "tokens_dir" "tokens"
  distDir := pathFrom e project s "dist_dir" "tokens/dist"
  varPrefix := highest
    [override? e "var_prefix", textIn s (project.map localPath) "var_prefix",
      textIn s (globalPath? e) "var_prefix"]
    defaultVarPrefix
  treeType := highest
    [shapeOverride e, shapeIn s (project.map localPath), shapeIn s (globalPath? e)] .unilevel

/-- The sources are in order. -/
structure SourcesInOrder (e : Environment) (project : Option String) (s : Store) : Prop where
  globalFile : InOrder s (globalPath? e)
  localFile : InOrder s (project.map localPath)
  environment : EnvironmentInOrder e

/-- The layer of the local file, its paths seen from the project. -/
def localLayer (s : Store) (project : Option String) : Layer :=
  { layerUnder (entriesIn s (project.map localPath)) with
    tokensDir := (textIn s (project.map localPath) "tokens_dir").map (seenFrom project)
    distDir := (textIn s (project.map localPath) "dist_dir").map (seenFrom project) }

theorem settles_loadLocal (project : Option String) :
    Settles (loadLocal project) s (InOrder s (project.map localPath)) (localLayer s project) := by
  cases project with
  | none => exact (settles_pure (s := s) Layer.empty).congr (iff_of_true trivial inOrder_none)
  | some directory =>
    exact ((settles_loadLayer (localPath directory)).bind
      (settles_pure (localLayer s (some directory)))).congr (iff_of_eq (and_true _))

theorem base_eq (project : Option String) :
    base project =
      ⟨seenFrom project "tokens", seenFrom project "tokens/dist", defaultVarPrefix, .unilevel⟩ := by
  cases project <;> rfl

/-- Layers on top of each other decide each setting by itself. -/
theorem overlay_layers (e : Environment) (project : Option String) :
    ((((base project).overlay (layerUnder (entriesIn s (globalPath? e)))).overlay
      (localLayer s project)).overlay (environmentLayer e)).expand e = decided e project s := by
  simp only [base_eq, overlay, expand, decided, pathFrom, highest_three]
  rfl

theorem settles_load (e : Environment) (project : Option String) :
    Settles (load e project) s (SourcesInOrder e project s) (decided e project s) := by
  have hload : Settles (load e project) s
      (InOrder s (globalPath? e) ∧ InOrder s (project.map localPath) ∧ EnvironmentInOrder e)
      (decided e project s) := by
    refine (settles_loadLayerAt _).bind ((settles_loadLocal project).bind ?_)
    rcases ofEnvironment_cases e with ⟨horder, hlayer⟩ | ⟨horder, fault, hlayer⟩
    · rw [hlayer, ← overlay_layers]
      exact .inl ⟨horder, rfl⟩
    · rw [hlayer]
      exact .inr ⟨horder, fault, rfl⟩
  exact hload.congr
    ⟨fun h => ⟨h.1, h.2.1, h.2.2⟩, fun h => ⟨h.globalFile, h.localFile, h.environment⟩⟩

/-- **Each setting is decided by the highest source that specifies it.** -/
theorem load_decides (e : Environment) (project : Option String) (s : Store) :
    (SourcesInOrder e project s ∧
        (load (m := StateM Store) e project).run.run s = (.ok (decided e project s), s)) ∨
      (¬ SourcesInOrder e project s ∧
        ∃ fault, (load (m := StateM Store) e project).run.run s = (.error (.config fault), s)) :=
  settles_load e project

end Downline.Settings
