import Downline.Proofs.Settings.Layers

/-!
# Where the paths of a local file lead

The local file of a project may write its paths relative to the project. Whether a path is relative
is asked of the path as it is written, and only afterwards are its references replaced. A path such
as `~/x` or `$HOME/x` is relative as it is written, so it leads below the project, although by
itself it expands to an absolute path. `load_localPath` says for which paths this makes no
difference.

A directory without a dollar sign stands for itself in front of any path (`parts_append`). The one
thing that may still happen to it is that its own tilde is replaced (`expandTilde_cases`).
-/

namespace Downline

namespace Environment

variable (e : Environment)

theorem parts_append {cs : List Char} (h : '$' ∉ cs) (rest : List Char) :
    parts (cs ++ rest) = cs.map .char ++ parts rest := by
  induction cs with
  | nil => rfl
  | cons c cs ih =>
    have hc : '$' ≠ c := List.ne_of_not_mem_cons h
    rw [List.cons_append, parts, ih (List.not_mem_of_not_mem_cons h), List.map_cons,
      List.cons_append]
    · rintro _ rfl
      exact absurd rfl hc
    · rintro _ rfl
      exact absurd rfl hc
    · rintro _ _ rfl
      exact absurd rfl hc

theorem partsValue?_append (cs : List Char) (ps : List Part) :
    e.partsValue? (cs.map .char ++ ps) = (e.partsValue? ps).map (cs ++ ·) := by
  induction cs with
  | nil => simp
  | cons c cs ih => simp [partsValue?, partValue?, ih, Function.comp_def]

/-- A tilde in front is replaced by the home directory if it is a segment of its own and there is a
home directory; otherwise a path stays as it is. -/
theorem expandTilde_cases (cs : List Char) :
    e.expandTilde cs = cs ∨
      ∃ home tail, e.home? = some home ∧ cs = '~' :: tail ∧
        e.expandTilde cs = home.toList ++ tail := by
  unfold expandTilde
  split
  next home hhome => exact .inr ⟨home, [], hhome, rfl, by simp⟩
  next rest home hhome => exact .inr ⟨home, '/' :: rest, hhome, rfl, rfl⟩
  next => exact .inl rfl

/-- What a path expands to if all its variables have values. -/
theorem expandChars_of_value {cs value : List Char} (h : e.partsValue? (parts cs) = some value) :
    e.expandChars cs =
      if cs.head? ≠ some '~' ∧ value.head? = some '~' then value else e.expandTilde value := by
  rw [expandChars, h]

/-- Without a tilde in front, a path expands to what its variables say. -/
theorem expandChars_of_no_tilde {cs value : List Char} (h : e.partsValue? (parts cs) = some value)
    (htilde : cs.head? ≠ some '~') : e.expandChars cs = value := by
  rw [e.expandChars_of_value h]
  by_cases hhead : value.head? = some '~'
  · rw [if_pos ⟨htilde, hhead⟩]
  · rw [if_neg fun h => hhead h.2]
    rcases e.expandTilde_cases value with hsame | ⟨_, _, _, rfl, _⟩
    · exact hsame
    · exact absurd rfl hhead

/-- A path with a tilde in front expands to an absolute one only by way of the home directory. -/
theorem exists_home_of_absolute {tail value : List Char}
    (h : e.partsValue? (parts ('~' :: tail)) = some value)
    (habsolute : (e.expandChars ('~' :: tail)).head? = some '/') :
    ∃ home after, e.home? = some home ∧ value = '~' :: after ∧
      e.expandChars ('~' :: tail) = home.toList ++ after := by
  obtain ⟨after, rfl⟩ : ∃ after, value = '~' :: after := by
    rw [← List.singleton_append, parts_append (by decide), partsValue?_append] at h
    obtain ⟨after, -, rfl⟩ := Option.map_eq_some_iff.mp h
    exact ⟨after, rfl⟩
  rw [e.expandChars_of_value h, if_neg fun h => h.1 rfl] at habsolute ⊢
  rcases e.expandTilde_cases ('~' :: after) with hsame | ⟨home, after', hhome, hcons, hexpand⟩
  · rw [hsame] at habsolute
    cases habsolute
  · obtain rfl : after = after' := (List.cons.inj hcons).2
    exact ⟨home, after, hhome, rfl, hexpand⟩

/-- A path behind a directory expands to what its variables say, behind a front which is the
directory or, if this begins with a tilde, what comes of it. -/
theorem exists_expandChars_append {front cs value : List Char} (hplain : '$' ∉ front)
    (hslash : front.getLast? = some '/') (h : e.partsValue? (parts cs) = some value) :
    ∃ before, e.expandChars (front ++ cs) = before ++ value ∧ before ≠ [] ∧
      (before = front ∨
        ∃ home rest, e.home? = some home ∧ front = '~' :: rest ∧ before = home.toList ++ rest ∧
          rest ≠ []) := by
  have hne : front ≠ [] := by
    rintro rfl
    cases hslash
  have hvalue : e.partsValue? (parts (front ++ cs)) = some (front ++ value) := by
    rw [parts_append hplain, partsValue?_append, h, Option.map_some]
  have hhead : ¬ ((front ++ cs).head? ≠ some '~' ∧ (front ++ value).head? = some '~') := by
    obtain ⟨c, rest, rfl⟩ := List.exists_cons_of_ne_nil hne
    exact fun ⟨hno, hyes⟩ => hno hyes
  rw [e.expandChars_of_value hvalue, if_neg hhead]
  rcases e.expandTilde_cases (front ++ value) with hsame | ⟨home, tail, hhome, hfront, hexpand⟩
  · exact ⟨front, hsame, hne, .inl rfl⟩
  · obtain ⟨c, rest, rfl⟩ := List.exists_cons_of_ne_nil hne
    obtain ⟨rfl, rfl⟩ := List.cons.inj hfront
    have hrest : rest ≠ [] := by
      rintro rfl
      cases hslash
    exact ⟨home.toList ++ rest, hexpand.trans (List.append_assoc _ _ _).symm,
      List.append_ne_nil_of_right_ne_nil _ hrest, .inr ⟨home, rest, hhome, rfl, rfl, hrest⟩⟩

/-- **A relative path that expands to an absolute one is something else behind a directory**, unless
it begins with a tilde and the home directory is the entry `~` of that directory. -/
theorem expandChars_append_eq_iff {front cs : List Char} (hplain : '$' ∉ front)
    (hslash : front.getLast? = some '/') (hrelative : cs.head? ≠ some '/')
    (habsolute : (e.expandChars cs).head? = some '/') :
    e.expandChars (front ++ cs) = e.expandChars cs ↔
      cs.head? = some '~' ∧ ∃ home, e.home? = some home ∧ home.toList = front ++ ['~'] := by
  cases hvalue : e.partsValue? (parts cs) with
  | none =>
    rw [expandChars, hvalue] at habsolute
    exact absurd habsolute hrelative
  | some value =>
    obtain ⟨before, hbehind, hbefore, hfront⟩ := e.exists_expandChars_append hplain hslash hvalue
    rw [hbehind]
    by_cases htilde : cs.head? = some '~'
    · -- The tilde is the only way from a relative path to an absolute one that drops a character.
      obtain ⟨tail, rfl⟩ : ∃ tail, cs = '~' :: tail := List.head?_eq_some_iff.mp htilde
      obtain ⟨home, after, hhome, rfl, hexpand⟩ := e.exists_home_of_absolute hvalue habsolute
      have hcancel : before ++ '~' :: after = home.toList ++ after ↔
          home.toList = before ++ ['~'] := by
        rw [List.append_cons, List.append_left_inj, eq_comm]
      rw [hexpand] at habsolute ⊢
      rw [hcancel, hhome]
      simp only [List.head?_cons, Option.some.injEq, exists_eq_left', true_and]
      rcases hfront with rfl | ⟨home', rest, hhome', rfl, rfl, -⟩
      · rfl
      · obtain rfl : home = home' := Option.some.inj (hhome.symm.trans hhome')
        refine iff_of_false (fun h => ?_) fun h => ?_
        · have hlength := congrArg List.length h
          simp only [List.length_append, List.length_cons] at hlength
          omega
        · rw [h] at habsolute
          cases habsolute
    · refine iff_of_false (fun h => ?_) fun h => htilde h.1
      rw [e.expandChars_of_no_tilde hvalue htilde] at h
      exact hbefore (by simpa using h)

theorem head?_expand_eq {path : String} (h : Files.isAbsolute (e.expand path) = true) :
    (e.expandChars path.toList).head? = some '/' := by
  rwa [Files.isAbsolute, expand, String.toList_ofList, beq_iff_eq] at h

end Environment

namespace Settings

open Files

/-- A setting that is a path. -/
inductive PathSetting where
  | tokensDir
  | distDir

namespace PathSetting

/-- The key of a setting in documents and in the environment. -/
def key : PathSetting → String
  | tokensDir => "tokens_dir"
  | distDir => "dist_dir"

/-- The value of a setting. -/
def of (s : Settings) : PathSetting → String
  | tokensDir => s.tokensDir
  | distDir => s.distDir

end PathSetting

variable {e : Environment} {directory path : String} {s : Store} {settings : Settings}

theorem eq_decided {project : Option String}
    (h : ((load (m := StateM Store) e project).run.run s).1 = .ok settings) :
    settings = decided e project s := by
  rcases settles_load (s := s) e project with ⟨-, hrun⟩ | ⟨-, fault, hrun⟩
  · rw [hrun] at h
    exact (Except.ok.inj h).symm
  · rw [hrun] at h
    cases h

/-- A path of the local file that the environment leaves alone is joined to the project and then
expanded. -/
theorem pathFrom_of_local {key : String} (fallback : String)
    (hlocal : textIn s (some (localPath directory)) key = some path)
    (henvironment : override? e key = none) :
    pathFrom e (some directory) s key fallback = e.expand (join directory path) := by
  rw [pathFrom, highest_three, henvironment, Option.map_some, hlocal]
  rfl

theorem expand_join_eq_iff (hplain : '$' ∉ directory.toList)
    (habsolute : isAbsolute (e.expand path) = true) :
    e.expand (join directory path) = e.expand path ↔
      isAbsolute path = true ∨ directory = "" ∨
        (path.toList.head? = some '~' ∧ e.home? = some (join directory "~")) := by
  by_cases hpath : isAbsolute path = true
  · simp [join_of_absolute hpath, hpath]
  by_cases hdirectory : directory = ""
  · simp [hdirectory, join_empty]
  have htilde : (join directory "~").toList = front directory ++ ['~'] :=
    toList_join_of_relative hdirectory (by decide)
  have hrelative : path.toList.head? ≠ some '/' := by simpa [isAbsolute] using hpath
  have hchars := e.expandChars_append_eq_iff (not_mem_front (by decide) hplain)
    (getLast?_front directory) hrelative (e.head?_expand_eq habsolute)
  rw [← toList_join_of_relative hdirectory hpath] at hchars
  rw [Environment.expand, Environment.expand, String.ofList_inj, hchars]
  simp only [hpath, hdirectory, false_or, Bool.false_eq_true]
  refine and_congr_right fun _ => ⟨?_, fun h => ⟨_, h, htilde⟩⟩
  rintro ⟨home, hhome, heq⟩
  rw [hhome, String.toList_injective (heq.trans htilde.symm)]

/-- **A path of the local file leads where it expands to by itself only if it is absolute as it is
written**, or if there is nothing that it could be joined to, or if the project happens to have the
home directory as its entry `~`. Any other path is joined to the project first, and a tilde in front
of it is then no longer replaced. -/
theorem load_localPath (p : PathSetting)
    (hload : ((load (m := StateM Store) e (some directory)).run.run s).1 = .ok settings)
    (hlocal : textIn s (some (localPath directory)) p.key = some path)
    (henvironment : override? e p.key = none)
    (habsolute : isAbsolute (e.expand path) = true) :
    p.of settings = e.expand (join directory path) ∧
      ('$' ∉ directory.toList →
        (p.of settings = e.expand path ↔
          isAbsolute path = true ∨ directory = "" ∨
            (path.toList.head? = some '~' ∧ e.home? = some (join directory "~")))) := by
  have hof : p.of settings = e.expand (join directory path) := by
    rw [eq_decided hload]
    cases p <;> exact pathFrom_of_local _ hlocal henvironment
  exact ⟨hof, fun hplain => hof ▸ expand_join_eq_iff hplain habsolute⟩

/-- An account with a home directory. -/
def kim : Environment := ⟨[("HOME", "/home/kim")], none⟩

/-- A project with a local file. -/
def projectWith (text : String) : Store :=
  ⟨[(["proj"], .directory), (["proj", ".orgtree.toml"], .file text.toUTF8)], []⟩

theorem eq_ok_of_toOption {α : Type} {r : Except Failure α} {a : α} (h : r.toOption = some a) :
    r = .ok a := by
  cases r with
  | error _ => cases h
  | ok b => exact congrArg Except.ok (Option.some.inj h)

theorem load_localPath_variable :
    let s := projectWith "dist_dir = \"$HOME/x\""
    ∃ settings, ((load (m := StateM Store) kim (some "proj")).run.run s).1 = .ok settings ∧
      textIn s (some (localPath "proj")) "dist_dir" = some "$HOME/x" ∧
      override? kim "dist_dir" = none ∧ isAbsolute (kim.expand "$HOME/x") = true ∧
      settings.distDir = kim.expand (join "proj" "$HOME/x") ∧
      ('$' ∉ "proj".toList →
        (settings.distDir = kim.expand "$HOME/x" ↔
          isAbsolute "$HOME/x" = true ∨ "proj" = "" ∨
            ("$HOME/x".toList.head? = some '~' ∧ kim.home? = some (join "proj" "~")))) := by
  intro s
  have hload : ((load (m := StateM Store) kim (some "proj")).run.run s).1 =
      .ok ⟨"proj/tokens", "proj//home/kim/x", "aeg", .unilevel⟩ :=
    eq_ok_of_toOption (by decide +kernel)
  have hlocal : textIn s (some (localPath "proj")) "dist_dir" = some "$HOME/x" := by decide +kernel
  have henvironment : override? kim "dist_dir" = none := by decide +kernel
  have habsolute : isAbsolute (kim.expand "$HOME/x") = true := by decide +kernel
  exact ⟨_, hload, hlocal, henvironment, habsolute,
    load_localPath .distDir hload hlocal henvironment habsolute⟩

/-- A tilde in front of a local path is not replaced: it ends up inside the project. -/
theorem load_tilde_below_project :
    let s := projectWith "tokens_dir = \"~/x\""
    ∃ settings, ((load (m := StateM Store) kim (some "proj")).run.run s).1 = .ok settings ∧
      textIn s (some (localPath "proj")) "tokens_dir" = some "~/x" ∧
      override? kim "tokens_dir" = none ∧ kim.expand "~/x" = "/home/kim/x" ∧
      settings.tokensDir = "proj/~/x" ∧ settings.tokensDir ≠ kim.expand "~/x" :=
  ⟨⟨"proj/~/x", "proj/tokens/dist", "aeg", .unilevel⟩, eq_ok_of_toOption (by decide +kernel),
    by decide +kernel, by decide +kernel, by decide +kernel, rfl, by decide +kernel⟩

end Settings

end Downline
