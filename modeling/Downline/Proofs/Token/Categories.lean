import Downline.Proofs.Json.Keyed
import Downline.Proofs.Token.Perform

/-!
# Which categories a library lists

A library lists the stems of the files that stand directly in its directory and have the extension
of bundles, each of them once (`categories_listed`). Names that are no text are left out, and so is
whatever is no file.

The list is put in order before the extensions are cut off, so it ascends by file names. By itself
it ascends unless one category begins with another one and goes on with something that comes before
the extension: `a-b.json` stands before `a.json`, for a dash comes before a point, while `a` comes
before `a-b`.
-/

namespace Downline.Token

open Files Json

/-! ## Orders of names -/

section Order

variable {x y ending : List UInt8}

theorem lt_append_self {rest : List UInt8} (h : rest ≠ []) : x < x ++ rest := by
  obtain ⟨b, rest, rfl⟩ := List.exists_cons_of_ne_nil h
  have hlt : x ++ [] < x ++ b :: rest := List.append_left_lt (List.nil_lt_cons b rest)
  rwa [List.append_nil] at hlt

/-- An ending turns the order of two names round only if one begins with the other and goes on with
something that comes before the ending. -/
theorem lt_or_exists_of_append_lt (h : x ++ ending < y ++ ending) :
    x < y ∨ ∃ rest, rest ≠ [] ∧ x = y ++ rest ∧ rest ++ ending < ending := by
  induction x generalizing y with
  | nil =>
    cases y with
    | nil => exact absurd h (Std.lt_irrefl)
    | cons c y => exact .inl (List.nil_lt_cons c y)
  | cons b x ih =>
    cases y with
    | nil => exact .inr ⟨b :: x, List.cons_ne_nil b x, rfl, h⟩
    | cons c y =>
      rcases List.cons_lt_cons_iff.mp h with hlt | ⟨rfl, hrest⟩
      · exact .inl (List.cons_lt_cons_iff.mpr (.inl hlt))
      · rcases ih hrest with hlt | ⟨rest, hne, rfl, hlt⟩
        · exact .inl (List.cons_lt_cons_iff.mpr (.inr ⟨rfl, hlt⟩))
        · exact .inr ⟨rest, hne, rfl, hlt⟩

/-- In a list in order, what holds of each member and any later one holds of a smaller member and a
greater one. -/
theorem of_pairwise_of_lt {α : Type} {key : α → List UInt8} {R : α → α → Prop} {as : List α}
    (hordered : as.Pairwise fun a b => key a < key b) (h : as.Pairwise R) {a b : α} (ha : a ∈ as)
    (hb : b ∈ as) (hlt : key a < key b) : R a b := by
  have hself : ∀ c ∈ as, key c < key c → R c c := fun _ _ hc => absurd hc Std.lt_irrefl
  have hlater : as.Pairwise fun c d => key c < key d → R c d :=
    h.imp fun {c d} hR (_ : key c < key d) => hR
  have hearlier : as.Pairwise fun c d => key d < key c → R d c :=
    hordered.imp fun hcd hdc => absurd hdc (List.lt_asymm hcd)
  exact hlater.forall_of_forall_of_flip hself hearlier ha hb hlt

end Order

/-! ## Categories -/

/-- The file name of a category. -/
def fileName (category : String) : List UInt8 := bytesOf (category ++ ".json")

theorem fileName_eq (category : String) : fileName category = bytesOf category ++ bytesOf ".json" :=
  bytesOf_append category ".json"

theorem bytesOf_ne_nil_iff {text : String} : bytesOf text ≠ [] ↔ text ≠ "" := by
  have hempty : bytesOf "" = [] := rfl
  rw [← hempty, ne_eq, bytesOf_inj]

namespace Library

/-- **A file name has a category exactly if it is the file name of one that is not empty.** -/
theorem categoryOf?_eq_some_iff {name : List UInt8} {category : String} :
    categoryOf? name = some category ↔ category ≠ "" ∧ name = fileName category := by
  have hcut {stem : List UInt8} :
      stemAndExtension name = (stem, some (bytesOf bundleExtension)) ↔
        stem ≠ [] ∧ name = stem ++ point :: bytesOf bundleExtension :=
    stemAndExtension_eq_iff (by decide) (by decide)
  have hending : point :: bytesOf bundleExtension = bytesOf ".json" := by decide
  rw [← bytesOf_ne_nil_iff, fileName_eq, ← hending, ← hcut, categoryOf?]
  rcases stemAndExtension name with ⟨stem, _ | extension⟩
  · simp
  · by_cases hextension : extension = bytesOf bundleExtension
    · simp [hextension, textOf?_eq_some_iff]
    · simp [hextension]

end Library

/-- The categories of a directory, of which it is told what files stand in it: the stem of every
file with the extension of bundles, each once, in the order of the file names. -/
structure ListsCategories (isFile : List UInt8 → Prop) (categories : List String) : Prop where
  mem_iff : ∀ category, category ∈ categories ↔ category ≠ "" ∧ isFile (fileName category)
  once : categories.Nodup
  byFileName : categories.Pairwise fun a b => fileName a < fileName b
  /-- The order is that of the categories themselves unless one goes on, where another one ends,
  with something that comes before the extension. -/
  ascending_iff : categories.Pairwise (fun a b => bytesOf a < bytesOf b) ↔
    ∀ a ∈ categories, ∀ b ∈ categories, ∀ rest, rest ≠ [] → bytesOf b = bytesOf a ++ rest →
      bytesOf ".json" < rest ++ bytesOf ".json"

namespace Library

variable {listing : List Listed}

theorem mem_categoriesOf {category : String} :
    category ∈ categoriesOf listing ↔
      category ≠ "" ∧ ⟨fileName category, true⟩ ∈ listing := by
  have hfile (name : List UInt8) :
      name ∈ (listing.filter (·.isFile)).map (·.name) ↔ ⟨name, true⟩ ∈ listing := by
    rw [List.mem_map]
    constructor
    · rintro ⟨⟨_, isFile⟩, hmem, rfl⟩
      obtain ⟨hmem, rfl⟩ := List.mem_filter.mp hmem
      exact hmem
    · exact fun hmem => ⟨_, List.mem_filter.mpr ⟨hmem, rfl⟩, rfl⟩
  simp only [categoriesOf, List.mem_filterMap, List.mem_mergeSort, hfile, categoryOf?_eq_some_iff]
  constructor
  · rintro ⟨name, hmem, hne, rfl⟩
    exact ⟨hne, hmem⟩
  · rintro ⟨hne, hmem⟩
    exact ⟨_, hmem, hne, rfl⟩

/-- Different entries of a directory have different names, so the names ascend strictly. -/
theorem pairwise_categoriesOf (hdistinct : (listing.map (·.name)).Nodup) :
    (categoriesOf listing).Pairwise fun a b => fileName a < fileName b := by
  have hnames : ((listing.filter (·.isFile)).map (·.name)).Nodup :=
    (List.filter_sublist.map _).nodup hdistinct
  rw [categoriesOf, List.pairwise_filterMap]
  generalize (listing.filter (·.isFile)).map (·.name) = names at hnames
  have hsorted : (names.mergeSort fun a b => decide (a ≤ b)).Pairwise (· ≤ ·) := by
    have htrans (a b c : List UInt8) (hab : decide (a ≤ b) = true) (hbc : decide (b ≤ c) = true) :
        decide (a ≤ c) = true :=
      decide_eq_true (List.le_trans (of_decide_eq_true hab) (of_decide_eq_true hbc))
    have htotal (a b : List UInt8) : (decide (a ≤ b) || decide (b ≤ a)) = true := by
      simpa using List.le_total a b
    exact (List.pairwise_mergeSort htrans htotal names).imp of_decide_eq_true
  have hstrict : (names.mergeSort fun a b => decide (a ≤ b)).Pairwise (· < ·) :=
    (hsorted.and ((List.mergeSort_perm names _).nodup_iff.mpr hnames)).imp
      fun h => Std.lt_of_le_of_ne h.1 h.2
  refine hstrict.imp fun {name name'} hlt a ha b hb => ?_
  rwa [← (categoryOf?_eq_some_iff.mp ha).2, ← (categoryOf?_eq_some_iff.mp hb).2]

theorem ascending_iff {categories : List String}
    (h : categories.Pairwise fun a b => fileName a < fileName b) :
    categories.Pairwise (fun a b => bytesOf a < bytesOf b) ↔
      ∀ a ∈ categories, ∀ b ∈ categories, ∀ rest, rest ≠ [] → bytesOf b = bytesOf a ++ rest →
        bytesOf ".json" < rest ++ bytesOf ".json" := by
  constructor
  · intro hascending a ha b hb rest hne hrest
    rcases Std.lt_trichotomy (bytesOf ".json") (rest ++ bytesOf ".json") with hlt | heq | hgt
    · exact hlt
    · exact absurd (List.self_eq_append_left.mp heq) hne
    · -- The file names stand the other way round, and so do the categories in the list.
      have hfiles : fileName b < fileName a := by
        rw [fileName_eq, fileName_eq, hrest, List.append_assoc]
        exact List.append_left_lt hgt
      have hback : bytesOf b < bytesOf a := of_pairwise_of_lt h hascending hb ha hfiles
      rw [hrest] at hback
      exact absurd hback (List.lt_asymm (lt_append_self hne))
  · intro hgoesOn
    refine h.imp_of_mem fun {a b} ha hb hlt => ?_
    rw [fileName_eq, fileName_eq] at hlt
    rcases lt_or_exists_of_append_lt hlt with hlt | ⟨rest, hne, heq, hrest⟩
    · exact hlt
    · exact absurd (hgoesOn b hb a ha rest hne heq) (List.lt_asymm hrest)

theorem lists_categoriesOf (hdistinct : (listing.map (·.name)).Nodup) :
    ListsCategories (fun name => ⟨name, true⟩ ∈ listing) (categoriesOf listing) where
  mem_iff _ := mem_categoriesOf
  once := (pairwise_categoriesOf hdistinct).imp fun {a b} (h : fileName a < fileName b) heq => by
    rw [heq] at h
    exact Std.lt_irrefl h
  byFileName := pairwise_categoriesOf hdistinct
  ascending_iff := ascending_iff (pairwise_categoriesOf hdistinct)

end Library

/-! ## Directories -/

/-- No location has two entries. -/
def Distinct (s : Store) : Prop := (s.entries.map Prod.fst).Nodup

theorem Distinct.put {s : Store} (h : Distinct s) (l : Location) (e : Entry) :
    Distinct (s.put l e) := by
  refine List.nodup_cons.mpr ⟨fun hmem => ?_, (List.filter_sublist.map _).nodup h⟩
  obtain ⟨⟨k, _⟩, hentry, rfl⟩ := List.mem_map.mp hmem
  simpa using (List.mem_filter.mp hentry).2

theorem mem_listingAt {s : Store} (h : Distinct s) {l : Location} {name : List UInt8} :
    ⟨name, true⟩ ∈ s.listingAt l ↔ ∃ text content, name = bytesOf text ∧
      s.occupant? (l ++ [text]) = some (.file content) := by
  have hoccupant {text : String} {e : Entry} :
      s.occupant? (l ++ [text]) = some e ↔ (l ++ [text], e) ∈ s.entries := by
    rw [Store.occupant?, if_neg (List.append_ne_nil_of_right_ne_nil l (List.cons_ne_nil text []))]
    refine ⟨fun hlookup => ?_, lookup_of_mem h⟩
    obtain ⟨before, after, hentries, -⟩ := List.lookup_eq_some_iff.mp hlookup
    rw [hentries]
    exact List.mem_append_right before (.head _)
  rw [Store.listingAt, List.mem_filterMap]
  constructor
  · rintro ⟨⟨k, e⟩, hmem, hlisted⟩
    obtain ⟨text, rfl, heq⟩ := Store.listed?_eq_some_iff.mp hlisted
    cases e with
    | file content =>
      cases heq
      exact ⟨text, content, rfl, hoccupant.mpr hmem⟩
    | directory => cases heq
  · rintro ⟨text, content, rfl, hfile⟩
    exact ⟨_, hoccupant.mp hfile, Store.listed?_eq_some_iff.mpr ⟨text, rfl, rfl⟩⟩

theorem nodup_listingAt {s : Store} (h : Distinct s) (l : Location) :
    ((s.listingAt l).map (·.name)).Nodup := by
  have hlocations : s.entries.Pairwise fun a b => a.1 ≠ b.1 := List.pairwise_map.mp h
  refine List.pairwise_map.mpr (List.pairwise_filterMap.mpr (hlocations.imp ?_))
  rintro ⟨k, e⟩ ⟨k', e'⟩ hne listed hlisted listed' hlisted' hname
  obtain ⟨text, rfl, rfl⟩ := Store.listed?_eq_some_iff.mp hlisted
  obtain ⟨text', rfl, rfl⟩ := Store.listed?_eq_some_iff.mp hlisted'
  exact hne (by rw [bytesOf_inj.mp hname])

namespace Library

/-- A library without a directory lists nothing. -/
theorem perform_categories_of_not_isDirectory {lib : Library} {w : World}
    (h : w.files.isDirectory lib.directory = false) :
    perform lib.categories w = (.ok [], w) := by
  have hdirectory : (FileAccess.isDirectory (m := StateM Store) lib.directory).run w.files =
      (w.files.isDirectory lib.directory, w.files) := rfl
  simp only [categories, perform_bind, perform_ask, hdirectory, h, Bool.false_eq_true, if_false,
    perform_pure]

/-- A library lists what stands in its directory. -/
theorem perform_categories {lib : Library} {w : World} {l : Location}
    (hlocate : w.files.locate? lib.directory = some l) (hl : w.files.isDirectoryAt l = true) :
    perform lib.categories w = (.ok (categoriesOf (w.files.listingAt l)), w) := by
  have hdirectory : (FileAccess.isDirectory (m := StateM Store) lib.directory).run w.files =
      (true, w.files) := by
    have hfound : w.files.isDirectory lib.directory = true := by
      rw [Store.isDirectory, hlocate, Option.any_some, hl]
    rw [← hfound]
    rfl
  have hlisting : (FileAccess.listing? (m := StateM Store) lib.directory).run w.files =
      (some (w.files.listingAt l), w.files) := by
    simp only [FileAccess.listing?, StateT.run_bind, StateT.run_get, pure_bind, hlocate, hl,
      if_true]
    rfl
  simp only [categories, perform_bind, perform_ask, hdirectory, hlisting, if_true, perform_pure]

/-- **A library lists the stem of every file with the extension of bundles in its directory, each
once and nothing else.** The list is in the order of the file names; it is in the order of the
categories exactly if none of them begins with another one and goes on with something that comes
before the extension. This holds whatever a directory is said to hold, names that are no text
included, and of the run on files in which no location stands twice; without a directory the list is
empty. -/
theorem categories_listed (lib : Library) {w : World} (hfiles : Distinct w.files)
    {listing : List Listed} (hlisting : (listing.map (·.name)).Nodup) :
    ListsCategories (fun name => ⟨name, true⟩ ∈ listing) (categoriesOf listing) ∧
      ((w.files.isDirectory lib.directory = false ∧ perform lib.categories w = (.ok [], w)) ∨
        ∃ l categories, w.files.locate? lib.directory = some l ∧ w.files.isDirectoryAt l = true ∧
          perform lib.categories w = (.ok categories, w) ∧
          ListsCategories (fun name => ∃ text content, name = bytesOf text ∧
            w.files.occupant? (l ++ [text]) = some (.file content)) categories) := by
  refine ⟨lists_categoriesOf hlisting, ?_⟩
  cases hdirectory : w.files.isDirectory lib.directory with
  | false => exact .inl ⟨rfl, perform_categories_of_not_isDirectory hdirectory⟩
  | true =>
    obtain ⟨l, hlocate, hl⟩ := Store.isDirectory_eq_true_iff.mp hdirectory
    have hlists := lists_categoriesOf (nodup_listingAt hfiles l)
    simp only [mem_listingAt hfiles] at hlists
    exact .inr ⟨l, _, hlocate, hl, perform_categories hlocate hl, hlists⟩

/-- A directory with a name that is no text, a directory named like a bundle, and two bundles. -/
def mixedListing : List Listed :=
  [⟨[0xFF] ++ bytesOf ".json", true⟩, ⟨bytesOf "c.json", false⟩, ⟨bytesOf "b.json", true⟩,
    ⟨bytesOf "a.json", true⟩]

/-- Files of which one name begins with the stem of another. -/
def dashedFiles : Store :=
  (((⟨[], []⟩ : Store).put ["tokens"] .directory).put ["tokens", "a.json"] (.file .empty)).put
    ["tokens", "a-b.json"] (.file .empty)

theorem distinct_dashedFiles : Distinct dashedFiles :=
  ((Distinct.put (s := ⟨[], []⟩) List.nodup_nil _ _).put _ _).put _ _

theorem categories_listed_mixed :
    (Distinct dashedFiles ∧ (mixedListing.map (·.name)).Nodup) ∧
    ListsCategories (fun name => ⟨name, true⟩ ∈ mixedListing) (categoriesOf mixedListing) ∧
      ((dashedFiles.isDirectory "tokens" = false ∧
          perform (Library.categories ⟨"tokens", "p"⟩) ⟨[], dashedFiles⟩ =
            (.ok [], ⟨[], dashedFiles⟩)) ∨
        ∃ l categories, dashedFiles.locate? "tokens" = some l ∧
          dashedFiles.isDirectoryAt l = true ∧
          perform (Library.categories ⟨"tokens", "p"⟩) ⟨[], dashedFiles⟩ =
            (.ok categories, ⟨[], dashedFiles⟩) ∧
          ListsCategories (fun name => ∃ text content, name = bytesOf text ∧
            dashedFiles.occupant? (l ++ [text]) = some (.file content)) categories) :=
  have hlisting : (mixedListing.map (·.name)).Nodup := by decide +kernel
  ⟨⟨distinct_dashedFiles, hlisting⟩,
    categories_listed ⟨"tokens", "p"⟩ (w := ⟨[], dashedFiles⟩) distinct_dashedFiles hlisting⟩

theorem categoriesOf_dashedFiles :
    categoriesOf (dashedFiles.listingAt ["tokens"]) = ["a-b", "a"] := by
  have hnames : ((dashedFiles.listingAt ["tokens"]).filter (·.isFile)).map (·.name) =
      [bytesOf "a-b.json", bytesOf "a.json"] := by decide +kernel
  have hsorted : [bytesOf "a-b.json", bytesOf "a.json"].mergeSort (fun a b => decide (a ≤ b)) =
      [bytesOf "a-b.json", bytesOf "a.json"] :=
    List.mergeSort_of_pairwise (by decide +kernel)
  rw [categoriesOf, hnames, hsorted]
  decide +kernel

/-- **The list need not be in the order of the categories**: `a-b` stands before `a`. -/
theorem categories_unordered :
    perform (Library.categories ⟨"tokens", "p"⟩) ⟨[], dashedFiles⟩ =
        (.ok ["a-b", "a"], ⟨[], dashedFiles⟩) ∧
      ¬ ["a-b", "a"].Pairwise fun a b => bytesOf a < bytesOf b := by
  have hlocate : dashedFiles.locate? "tokens" = some ["tokens"] := by decide +kernel
  have hdirectory : dashedFiles.isDirectoryAt ["tokens"] = true := by decide +kernel
  refine ⟨?_, by decide +kernel⟩
  rw [← categoriesOf_dashedFiles]
  exact perform_categories hlocate hdirectory

end Library

end Downline.Token
