import Downline.Files.Store

/-!
# What operations on files leave alone

Whatever operations on files run in, a machine, a `Store` or a stand-in for either, some things can
be relied on. Reading changes nothing. Creating directories changes no file. Writing changes the
file that its path leads to and no other, and if it succeeds the file holds what was written. These
are the laws of a `View`, which says of a state which file a path leads to and what a file holds.

Several paths may lead to one file. But names in one directory are names of different files: there
is a law for this as well, so a file that is a link to its neighbour is ruled out.

When an operation fails, or what else it changes, is not said: a failed write may leave anything in
its file, and a failed creation some of the directories. A `Store` keeps the laws (`Store.lawful`).
-/

namespace Downline.Files

/-! ## Views -/

/-- A way to look at the state that operations on files run in. -/
structure View (σ φ : Type) where
  /-- The file that a path leads to, whether or not there is one yet. -/
  file : σ → String → φ
  /-- The bytes of a file, if there is one. -/
  content? : σ → φ → Option ByteArray

namespace View

variable {σ φ : Type} (v : View σ φ)

/-- From one state to another no file has changed but perhaps those listed, and paths lead where
they led. -/
structure ChangesOnly (changed : List φ) (s s' : σ) : Prop where
  file : ∀ path, v.file s' path = v.file s path
  content? : ∀ f, f ∉ changed → v.content? s' f = v.content? s f

variable {v}

theorem ChangesOnly.refl (changed : List φ) (s : σ) : v.ChangesOnly changed s s :=
  ⟨fun _ => rfl, fun _ _ => rfl⟩

theorem ChangesOnly.trans {changed changed' : List φ} {s s' s'' : σ}
    (h : v.ChangesOnly changed s s') (h' : v.ChangesOnly changed' s' s'') :
    v.ChangesOnly (changed ++ changed') s s'' where
  file path := (h'.file path).trans (h.file path)
  content? f hf :=
    (h'.content? f fun hmem => hf (List.mem_append_right _ hmem)).trans
      (h.content? f fun hmem => hf (List.mem_append_left _ hmem))

theorem ChangesOnly.mono {changed changed' : List φ} {s s' : σ} (h : v.ChangesOnly changed s s')
    (hsub : changed ⊆ changed') : v.ChangesOnly changed' s s' :=
  ⟨h.file, fun f hf => h.content? f fun hmem => hf (hsub hmem)⟩

theorem ChangesOnly.content?_of_ne {changed f : φ} {s s' : σ} (h : v.ChangesOnly [changed] s s')
    (hne : f ≠ changed) : v.content? s' f = v.content? s f :=
  h.content? f fun hmem => hne (List.mem_singleton.mp hmem)

end View

/-- A name that an entry of a directory may have. -/
structure IsName (name : String) : Prop where
  ne_empty : name ≠ ""
  ne_here : name ≠ "."
  ne_above : name ≠ ".."
  no_slash : '/' ∉ name.toList

/-- What can be relied on of operations on files. -/
structure View.Lawful {σ φ : Type} [FileAccess (StateM σ)] (v : View σ φ) : Prop where
  readText? : ∀ (path : String) (s : σ),
    ((FileAccess.readText? path : StateM σ (Option String)).run s).2 = s
  pathExists : ∀ (path : String) (s : σ),
    ((FileAccess.pathExists path : StateM σ Bool).run s).2 = s
  createDirectories : ∀ (path : String) (s : σ),
    v.ChangesOnly [] s ((FileAccess.createDirectories path : StateM σ Bool).run s).2
  writeText : ∀ (path text : String) (s : σ),
    v.ChangesOnly [v.file s path] s ((FileAccess.writeText path text : StateM σ Bool).run s).2
  written : ∀ (path text : String) (s : σ),
    ((FileAccess.writeText path text : StateM σ Bool).run s).1 = true →
    v.content? ((FileAccess.writeText path text : StateM σ Bool).run s).2 (v.file s path) =
      some text.toUTF8
  apart : ∀ (s : σ) (directory name name' : String), IsName name → IsName name' → name ≠ name' →
    v.file s (join directory name) ≠ v.file s (join directory name')

/-! ## Stores -/

namespace Store

/-- Where a segment of a path leads. -/
def follow (l : Location) (segment : String) : Location :=
  if segment = "" ∨ segment = "." then l
  else if segment = ".." then l.dropLast
  else l ++ [segment]

/-- The location that a path would lead to if all directories on the way were there. -/
def target (s : Store) (path : String) : Location :=
  (segments path).foldl follow (s.origin path)

/-- The bytes of the file at a location. -/
def contentAt? (s : Store) (l : Location) : Option ByteArray :=
  match s.occupant? l with
  | some (.file content) => some content
  | _ => none

/-- A store, looked at by location. -/
def view : View Store Location := ⟨target, contentAt?⟩

theorem step?_eq_some {s : Store} {l l' : Location} {segment : String}
    (h : s.step? l segment = some l') : s.isDirectoryAt l = true ∧ l' = follow l segment := by
  unfold step? at h
  split at h
  next hl =>
    refine ⟨hl, ?_⟩
    unfold follow
    split at h
    next hstay =>
      cases h
      rw [if_pos hstay]
    next hstay =>
      rw [if_neg hstay]
      split at h
      next hup =>
        cases h
        rw [if_pos hup]
      next hup =>
        cases h
        rw [if_neg hup]
  next => cases h

theorem foldlM_step?_eq_some {s : Store} {path : List String} {l l' : Location}
    (h : path.foldlM s.step? l = some l') : l' = path.foldl follow l := by
  induction path generalizing l with
  | nil => exact (Option.some.inj h).symm
  | cons segment path ih =>
    rw [List.foldlM_cons] at h
    obtain ⟨k, hstep, hrest⟩ := Option.bind_eq_some_iff.mp h
    rw [ih hrest, (step?_eq_some hstep).2, List.foldl_cons]

theorem target_of_locate? {s : Store} {path : String} {l : Location}
    (h : s.locate? path = some l) : l = s.target path := by
  unfold locate? at h
  split at h
  next => cases h
  next => exact foldlM_step?_eq_some h

/-! ### Names in a directory -/

theorem follow_of_isName {name : String} (h : IsName name) (l : Location) :
    follow l name = l ++ [name] := by
  rw [follow, if_neg (not_or.mpr ⟨h.ne_empty, h.ne_here⟩), if_neg h.ne_above]

theorem isAbsolute_of_isName {name : String} (h : IsName name) : isAbsolute name = false :=
  beq_eq_false_iff_ne.mpr fun hhead => h.no_slash (List.mem_of_head? hhead)

theorem segments_of_isName {name : String} (h : IsName name) : segments name = [name] := by
  rw [segments, Text.pieces_of_notMem h.no_slash, List.map_singleton, String.ofList_toList]

/-- Names in a directory lead right below one and the same location. -/
theorem exists_target_join (s : Store) (directory : String) :
    ∃ l, ∀ name, IsName name → s.target (join directory name) = l ++ [name] := by
  by_cases hempty : directory = ""
  · refine ⟨s.current, fun name hname => ?_⟩
    rw [hempty, join_empty, target, segments_of_isName hname, origin, isAbsolute_of_isName hname]
    exact follow_of_isName hname _
  · -- in front of the name stands the directory with a slash at its end
    obtain ⟨before, hbefore⟩ := List.getLast?_eq_some_iff.mp (getLast?_front directory)
    refine ⟨((Text.pieces '/' before).map String.ofList).foldl follow
      (if (before ++ ['/']).head? == some '/' then [] else s.current), fun name hname => ?_⟩
    have hjoin : (join directory name).toList = before ++ '/' :: name.toList := by
      rw [toList_join_of_relative hempty (by simp [isAbsolute_of_isName hname]), hbefore,
        List.append_assoc, List.singleton_append]
    have hsegments : segments (join directory name) =
        (Text.pieces '/' before).map String.ofList ++ [name] := by
      rw [segments, hjoin, Text.pieces_append_cons, List.map_append, ← segments,
        segments_of_isName hname]
    have horigin : s.origin (join directory name) =
        if (before ++ ['/']).head? == some '/' then [] else s.current := by
      rw [origin, isAbsolute, hjoin]
      cases before <;> rfl
    rw [target, hsegments, horigin, List.foldl_append]
    exact follow_of_isName hname _

/-! ### Changes -/

theorem contentAt?_put {s : Store} {l : Location} (e : Entry) (h : l ≠ []) (k : Location) :
    (s.put l e).contentAt? k =
      if k = l then (match e with | .file content => some content | .directory => none)
      else s.contentAt? k := by
  rw [contentAt?, occupant?_put s l k e h]
  by_cases hk : k = l
  · rw [if_pos hk, if_pos hk]
    cases e <;> rfl
  · rw [if_neg hk, if_neg hk, contentAt?]

/-- Putting an entry at a location changes no file elsewhere. -/
theorem changesOnly_put {s : Store} {l : Location} (e : Entry) (h : l ≠ []) :
    view.ChangesOnly [l] s (s.put l e) where
  file _ := rfl
  content? k hk := by
    have hne : k ≠ l := List.ne_of_not_mem_cons hk
    exact (contentAt?_put e h k).trans (if_neg hne)

/-- And a directory put where nothing stands changes none at all. -/
theorem changesOnly_put_directory {s : Store} {l : Location} (h : s.occupant? l = none) :
    view.ChangesOnly [] s (s.put l .directory) where
  file _ := rfl
  content? k _ := by
    have hroot : l ≠ [] := by
      intro hl
      rw [occupant?, if_pos hl] at h
      cases h
    have hnothing : s.contentAt? l = none := by rw [contentAt?, h]
    refine (contentAt?_put .directory hroot k).trans ?_
    by_cases hk : k = l
    · rw [if_pos hk, hk]
      exact hnothing.symm
    · exact if_neg hk

theorem changesOnly_createFrom? {path : List String} {s s' : Store} {l : Location}
    (h : s.createFrom? l path = some s') : view.ChangesOnly [] s s' := by
  induction path generalizing s l with
  | nil =>
    rw [createFrom?] at h
    split at h
    next =>
      cases h
      exact .refl [] s'
    next => cases h
  | cons segment path ih =>
    rw [createFrom?] at h
    split at h
    next => cases h
    next k _ =>
      split at h
      next hfree => exact (changesOnly_put_directory hfree).trans (ih h)
      next => exact ih h

theorem changesOnly_createDirectories? {s s' : Store} {path : String}
    (h : s.createDirectories? path = some s') : view.ChangesOnly [] s s' := by
  unfold createDirectories? at h
  split at h
  next =>
    cases h
    exact .refl [] s
  next => exact changesOnly_createFrom? h

/-- Bytes are put where their path leads to, and there is no directory. -/
theorem writeBytes?_eq_some {s s' : Store} {path : String} {content : ByteArray}
    (h : s.writeBytes? path content = some s') :
    s' = s.put (s.target path) (.file content) ∧ s.target path ≠ [] := by
  unfold writeBytes? at h
  split at h
  next => cases h
  next l hlocate =>
    split at h
    next => cases h
    next hfree =>
      cases h
      rw [← target_of_locate? hlocate]
      refine ⟨rfl, fun hl => hfree ?_⟩
      rw [isDirectoryAt, occupant?, if_pos hl]

theorem run_change (f : Store → Option Store) (s : Store) :
    (change f).run s = match f s with
      | none => (false, s)
      | some s' => (true, s') := by
  show (match f s with
    | none => pure false
    | some s' => do
      set s'
      return true : StateM Store Bool).run s = _
  cases f s <;> rfl

/-- **A store keeps the laws of files.** -/
theorem lawful : view.Lawful where
  readText? _ _ := rfl
  pathExists _ _ := rfl
  createDirectories path s := by
    show view.ChangesOnly [] s ((change (·.createDirectories? path)).run s).2
    rw [run_change]
    cases h : s.createDirectories? path with
    | none => exact .refl [] s
    | some s' => exact changesOnly_createDirectories? h
  writeText path text s := by
    show view.ChangesOnly [s.target path] s ((change (·.writeBytes? path text.toUTF8)).run s).2
    rw [run_change]
    cases h : s.writeBytes? path text.toUTF8 with
    | none => exact .refl _ s
    | some s' =>
      obtain ⟨rfl, hroot⟩ := writeBytes?_eq_some h
      exact changesOnly_put _ hroot
  written path text s := by
    show ((change (·.writeBytes? path text.toUTF8)).run s).1 = true →
      contentAt? ((change (·.writeBytes? path text.toUTF8)).run s).2 (s.target path) = _
    rw [run_change]
    cases h : s.writeBytes? path text.toUTF8 with
    | none => exact nofun
    | some s' =>
      intro _
      obtain ⟨rfl, hroot⟩ := writeBytes?_eq_some h
      exact (contentAt?_put _ hroot _).trans (if_pos rfl)
  apart s directory name name' hname hname' hne := by
    obtain ⟨l, hl⟩ := exists_target_join s directory
    show s.target (join directory name) ≠ s.target (join directory name')
    rw [hl name hname, hl name' hname']
    exact fun h => hne (List.singleton_inj.mp (List.append_cancel_left h))

end Store

end Downline.Files
