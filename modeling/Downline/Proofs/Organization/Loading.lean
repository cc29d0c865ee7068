import Downline.Files.Store
import Downline.Organization.Load
import Downline.Proofs.Arena.Runs
import Downline.Proofs.Arena.Standing
import Downline.Proofs.Organization.Document

/-!
# What an organization file loads as

A file is loaded by its text alone, and loading leaves the files as they are (`run_loadRoot` and its
companions). So what is said of loading is said of texts. An organization that has been written is
loaded back, whatever blanks stand around it (`loadRoot_toJson`). A list of records makes the same
organization whether it is loaded as an arena, as a tree or as rows (`loads_agree`): the tree is
read from the text without the blanks around it, the arena from the whole text, and both readers
see the same document.

Of a text that is no list of records the readers need not agree: a tree is no arena.
-/

namespace Downline.Organization

open Files Json

/-! ## Loading goes by the text -/

/-- The text of an organization file, or why there is none. -/
def contentAt (path : String) (s : Store) : Except Failure String :=
  match s.readText? path with
  | none => .error (.operation .readOrganization path)
  | some content => .ok content

theorem contentAt_of_find? {path text : String} {s : Store}
    (h : s.find? path = some (.file text.toUTF8)) : contentAt path s = .ok text := by
  rw [contentAt, Store.readText?_of_find? h]

theorem run_readFile (path : String) (s : Store) :
    (readFile (m := StateM Store) path).run.run s = (contentAt path s, s) := by
  have hread : (readFile (m := StateM Store) path).run.run s =
      (match s.readText? path with
        | none => throw (.operation .readOrganization path)
        | some content => pure content : ExceptT Failure (StateM Store) String).run.run s := rfl
  rw [hread, contentAt]
  cases s.readText? path <;> rfl

theorem ok_bind {α β : Type} (a : α) (f : α → Except Failure β) : (Except.ok a >>= f) = f a := rfl

/-- An operation that goes on from the content of a file leaves the files as they are. -/
theorem run_readFile_bind {α : Type} {use : String → ExceptT Failure (StateM Store) α}
    {f : String → Except Failure α} {s : Store}
    (huse : ∀ content, (use content).run.run s = (f content, s)) (path : String) :
    (readFile path >>= use).run.run s = (contentAt path s >>= f, s) := by
  rw [ExceptT.run_bind, StateT.run_bind, run_readFile]
  cases h : contentAt path s with
  | error e => rfl
  | ok content => exact huse content

theorem run_loadRoot (path : String) (s : Store) :
    (loadRoot (m := StateM Store) path).run.run s = (contentAt path s >>= rootOfText path, s) := by
  refine run_readFile_bind (fun content => ?_) path
  cases rootOfText path content <;> rfl

theorem run_loadRoot_of_content {path content : String} {s : Store}
    (h : contentAt path s = .ok content) :
    (loadRoot (m := StateM Store) path).run.run s = (rootOfText path content, s) := by
  rw [run_loadRoot, h, ok_bind]

theorem run_loadArena (path : String) (s : Store) :
    (loadArena (m := StateM Store) path).run.run s =
      (contentAt path s >>= arenaOfText path, s) := by
  refine run_readFile_bind (fun content => ?_) path
  cases arenaOfText path content <;> rfl

theorem run_loadArena_eq_ok_iff {path : String} {s s' : Store} {a : Arena} :
    (loadArena (m := StateM Store) path).run.run s = (.ok a, s') ↔
      s' = s ∧ ∃ content, contentAt path s = .ok content ∧ arenaOfText path content = .ok a := by
  rw [run_loadArena]
  constructor
  · intro h
    obtain ⟨harena, rfl⟩ := Prod.mk.inj h
    cases hcontent : contentAt path s with
    | error e =>
      rw [hcontent] at harena
      cases harena
    | ok content =>
      rw [hcontent] at harena
      exact ⟨rfl, content, rfl, harena⟩
  · rintro ⟨rfl, content, hcontent, harena⟩
    rw [hcontent, ok_bind, harena]

/-- An organization that has been loaded is loaded as its rows. -/
theorem run_loadLevels_of_content {path content : String} {s : Store} {o : Organization}
    (h : contentAt path s = .ok content) (ho : rootOfText path content = .ok (some o)) :
    (loadLevels (m := StateM Store) path).run.run s = (.ok o.levels, s) := by
  rw [loadLevels, ExceptT.run_bind, StateT.run_bind, run_loadRoot_of_content h, ho]
  rfl

/-! ## Blanks around a document -/

theorem isBlank_of_json {c : Char} (hc : Document.isBlank c = true) : Text.isBlank c = true := by
  rcases Document.isBlank_cases hc with rfl | rfl | rfl | rfl <;> rfl

/-- A text that is a list stands between brackets and is still that list without the blanks around
it. -/
theorem exists_trim_of_list {s : String} {items : List Document}
    (h : Document.ofString? s = some (.list items)) :
    ∃ q, Text.trim s.toList = '[' :: (q ++ [']']) ∧
      Document.ofString? (String.ofList ('[' :: (q ++ [']']))) = some (.list items) := by
  obtain ⟨b', hb', b, p, hs, hb, hp, hlist⟩ := Document.exists_reads_of_ofChars? h
  obtain ⟨q, rfl⟩ := hlist items rfl
  refine ⟨q, ?_, ?_⟩
  · rw [hs]
    exact Text.trim_append_append (fun c hc => isBlank_of_json (hb c hc))
      (fun c hc => isBlank_of_json (hb' c hc)) rfl rfl q
  · have hwhole := Document.ofChars?_of_reads hp Document.blanks_nil
    rw [List.append_nil] at hwhole
    rw [Document.ofString?, String.toList_ofList, hwhole]

theorem ofList_ne_null {c : Char} (hc : c ≠ 'n') (cs : List Char) :
    String.ofList (c :: cs) ≠ "null" := by
  intro h
  have hchars := congrArg String.toList h
  rw [String.toList_ofList] at hchars
  exact hc (List.cons.inj hchars).1

/-! ## Trees -/

theorem rootOfText_braced (path : String) {content : String} {q : List Char}
    (htrim : Text.trim content.toList = '\x7b' :: (q ++ ['\x7d'])) {o : Organization}
    (ho : ofJson? (String.ofList ('\x7b' :: (q ++ ['\x7d']))) = some o) :
    rootOfText path content = .ok (some o) := by
  have hnull := ofList_ne_null (c := '\x7b') (by decide) (q ++ ['\x7d'])
  simp only [rootOfText, htrim, if_neg hnull, String.toList_ofList, List.head?_cons, ho]
  rfl

/-- **An organization that has been written is loaded back**, to whatever depth and width it goes,
whatever texts it holds and whatever blanks stand around it. -/
theorem loadRoot_toJson (o : Organization) {before after : String}
    (hbefore : ∀ c ∈ before.toList, Text.isBlank c = true)
    (hafter : ∀ c ∈ after.toList, Text.isBlank c = true) {path : String} {s : Store}
    (hfile : s.find? path = some (.file (before ++ o.toJson ++ after).toUTF8)) :
    (loadRoot (m := StateM Store) path).run.run s = (.ok (some o), s) := by
  obtain ⟨q, hq⟩ := o.exists_toJson_eq
  have htrim : Text.trim (before ++ o.toJson ++ after).toList = '\x7b' :: (q ++ ['\x7d']) := by
    rw [hq, String.toList_append, String.toList_append, String.toList_ofList, List.append_assoc]
    exact Text.trim_append_append hbefore hafter rfl rfl q
  have hroot := rootOfText_braced path htrim (hq ▸ o.ofJson?_toJson)
  have hcontent := contentAt_of_find? hfile
  rw [run_loadRoot_of_content hcontent, hroot]

/-- Files of which there is one, at the root. -/
def singleFile (name text : String) : Store := ⟨[([name], .file text.toUTF8)], []⟩

/-- Two members with texts that have to be escaped, one of them below the other. -/
def quoted : Organization :=
  .node ⟨"1", "\"김\"\n", "\\", 0, 18446744073709551615, .hold⟩
    [.node ⟨"", "\x00", "/", 7, 0, .active⟩ []]

theorem loadRoot_toJson_quoted :
    let s := singleFile "org.json" ("\u00a0\n" ++ quoted.toJson ++ "\u3000")
    (loadRoot (m := StateM Store) "/org.json").run.run s = (.ok (some quoted), s) :=
  loadRoot_toJson quoted (List.all_eq_true.mp rfl) (List.all_eq_true.mp rfl) rfl

/-! ## Lists of records -/

theorem exists_of_arenaOfText {path content : String} {a : Arena}
    (h : arenaOfText path content = .ok a) :
    ∃ records, Record.listOfJson? content = some records ∧ Arena.ofRecords records = .ok a := by
  rw [arenaOfText] at h
  split at h
  next => cases h
  next records hrecords =>
    split at h
    next => cases h
    next hbuilt =>
      cases h
      exact ⟨records, hrecords, hbuilt⟩

/-- A text that makes an arena makes the nested tree of that arena. -/
theorem rootOfText_of_arenaOfText {path content : String} {a : Arena}
    (h : arenaOfText path content = .ok a) : rootOfText path content = .ok a.organization? := by
  obtain ⟨records, hrecords, hbuilt⟩ := exists_of_arenaOfText h
  obtain ⟨d, hd, hlist⟩ := Option.bind_eq_some_iff.mp hrecords
  obtain ⟨items, rfl⟩ : ∃ items, d = .list items := by
    cases d <;> first | exact ⟨_, rfl⟩ | cases hlist
  obtain ⟨q, htrim, hwhole⟩ := exists_trim_of_list hd
  have hnull := ofList_ne_null (c := '[') (by decide) (q ++ [']'])
  have hrecords' : Record.listOfJson? (String.ofList ('[' :: (q ++ [']']))) = some records := by
    rw [Record.listOfJson?, hwhole, Option.bind_some, hlist]
  simp only [rootOfText, htrim, if_neg hnull, String.toList_ofList, List.head?_cons, if_true,
    arenaOfText, hrecords', hbuilt]
  rfl

/-- The nested tree of an arena that was built from records: it has as many members as the arena has
nodes and is as high as the arena is deep. -/
theorem exists_organization_of_build {records : List Record} {a : Arena}
    (h : Arena.ofRecords records = .ok a) :
    ∃ o, a.organization? = some o ∧ o.size = a.size ∧ o.height = a.depth := by
  obtain ⟨i, htop, hg⟩ := Record.growing_of_build_eq_ok Builder.new h
  have hwhole := (Arena.whole_of_build Builder.new h).1
  obtain ⟨o, ho, hshows⟩ := hwhole.exists_organization? hg.root
  refine ⟨o, ho, ?_, (hwhole.depth_eq hg.root hshows).symm⟩
  rw [← hwhole.length_preorder hg.root hshows, ← List.length_map Prod.fst,
    hwhole.preorder_perm.length_eq, List.length_range]

/-- **A list of records is the same organization however it is loaded.** Where the records of a file
make an arena, the tree is the nested tree of that arena, and the rows are as many as the arena is
deep and hold as many members as it has nodes. -/
theorem loads_agree {path : String} {s s' : Store} {a : Arena}
    (h : (loadArena (m := StateM Store) path).run.run s = (.ok a, s')) :
    s' = s ∧ ∃ o, a.organization? = some o ∧
      (loadRoot (m := StateM Store) path).run.run s = (.ok (some o), s) ∧
      ∃ l, (loadLevels (m := StateM Store) path).run.run s = (.ok l, s) ∧
        l.length = a.depth ∧ l.nodeCount = a.size := by
  obtain ⟨hsame, content, hcontent, harena⟩ := run_loadArena_eq_ok_iff.mp h
  obtain ⟨records, -, hbuilt⟩ := exists_of_arenaOfText harena
  obtain ⟨o, ho, hsize, hheight⟩ := exists_organization_of_build hbuilt
  have hroot := rootOfText_of_arenaOfText harena
  rw [ho] at hroot
  refine ⟨hsame, o, ho, ?_, o.levels, run_loadLevels_of_content hcontent hroot, ?_, ?_⟩
  · rw [run_loadRoot_of_content hcontent, hroot]
  · rw [length_levels, hheight]
  · rw [nodeCount_levels, hsize]

/-- Two records between blanks, the top second. -/
def twoRecords : String :=
  "\n[\x7b\"node_id\":\"b\",\"name\":\"\",\"status\":\"hold\",\"parent_node_id\":\"a\"\x7d,
    \x7b\"node_id\":\"a\",\"name\":\"\",\"status\":\"active\"\x7d]\t"

theorem loads_agree_twoRecords :
    let s := singleFile "org.json" twoRecords
    ∃ a o, (loadArena (m := StateM Store) "/org.json").run.run s = (.ok a, s) ∧
      a.organization? = some o ∧
      (loadRoot (m := StateM Store) "/org.json").run.run s = (.ok (some o), s) ∧
      ∃ l, (loadLevels (m := StateM Store) "/org.json").run.run s = (.ok l, s) ∧
        l.length = a.depth ∧ l.nodeCount = a.size := by
  intro s
  have hcontent : contentAt "/org.json" s = .ok twoRecords := contentAt_of_find? rfl
  obtain ⟨a, ha⟩ : ∃ a, arenaOfText "/org.json" twoRecords = .ok a := by
    have hok : (arenaOfText "/org.json" twoRecords).toOption.isSome = true := by decide +kernel
    cases h : arenaOfText "/org.json" twoRecords with
    | error e =>
      rw [h] at hok
      cases hok
    | ok a => exact ⟨a, rfl⟩
  have hrun : (loadArena (m := StateM Store) "/org.json").run.run s = (.ok a, s) :=
    run_loadArena_eq_ok_iff.mpr ⟨rfl, _, hcontent, ha⟩
  obtain ⟨-, o, ho, hagree⟩ := loads_agree hrun
  exact ⟨a, o, hrun, ho, hagree⟩

end Downline.Organization
