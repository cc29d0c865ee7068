import Downline.Proofs.Token.Perform

/-!
# What writing the exports does to files

Writing the exports of a library loads three bundles, renders two texts and writes two files, and
each step may be the last one. What it comes to is told here for whatever the operations on files
run in, as long as they keep the laws of a `View`, and for any bundles that the library has kept.

Rendering changes no file, so where a bundle cannot be loaded all files and directories are as they
were (`exists_outcome_exports`). Writing one file has three ends (`Delivered`): its directory cannot
be made, it cannot be written, or it holds the text. Both files lie in one directory under different
names, so writing the second leaves the first as it is, and the second is not touched before the
first is done (`writesExports`).

The two files are the only ones that may change, whatever happens. What a file holds whose writing
failed is not said.
-/

namespace Downline.Token

open Files

namespace Library

section Lawful

variable {σ φ : Type} [FileAccess (StateM σ)] {v : View σ φ}
variable (lib : Library) (shelf : Shelf) (s : σ)

/-! ## Rendering -/

/-- Rendering the exports answers the exports of what the categories are loaded as, and changes no
file. -/
theorem exists_outcome_exports (hv : v.Lawful) :
    ∃ shelf', outcome lib.exports shelf s = ⟨lib.exportsOf (lib.loaded shelf s), shelf', s⟩ := by
  obtain ⟨shelf₁, hcolors, hsame₁⟩ := exists_outcome_load lib shelf s hv "colors"
  obtain ⟨shelf₂, htypography, hsame₂⟩ := exists_outcome_load lib shelf₁ s hv "typography"
  obtain ⟨shelf₃, hcomponents, -⟩ := exists_outcome_load lib shelf₂ s hv "components"
  rw [hsame₁] at htypography
  rw [hsame₂, hsame₁] at hcomponents
  simp only [exports, exportsOf, outcome_bind, hcolors]
  cases lib.loaded shelf s "colors" with
  | error e => exact ⟨shelf₁, rfl⟩
  | ok colors =>
    simp only [htypography]
    cases lib.loaded shelf s "typography" with
    | error e => exact ⟨shelf₂, rfl⟩
    | ok typography =>
      simp only [hcomponents]
      cases lib.loaded shelf s "components" <;> exact ⟨shelf₃, rfl⟩

/-! ## Writing one file -/

/-- Why a path is not written to: its directory could not be made or the text not be written, in a
state in which no file had changed but perhaps some. -/
inductive Fails (v : View σ φ) (path : String) (changed : List φ) (s : σ) : Failure → Prop
  | unprepared {t : σ} : v.ChangesOnly changed s t →
      ((FileAccess.ensureParent path : StateM σ Bool).run t).1 = false →
      Fails v path changed s (.operation .createExportDirectory path)
  | unwritten {t : σ} {text : String} : v.ChangesOnly changed s t →
      ((FileAccess.writeText path text : StateM σ Bool).run t).1 = false →
      Fails v path changed s (.operation .writeExport path)

/-- What has changed before counts as well. -/
theorem Fails.after {path : String} {changed changed' : List φ} {s s' : σ} {e : Failure}
    (hs : v.ChangesOnly changed s s') (h : Fails v path changed' s' e) :
    Fails v path (changed ++ changed') s e := by
  cases h with
  | unprepared ht hrefused => exact .unprepared (hs.trans ht) hrefused
  | unwritten ht hrefused => exact .unwritten (hs.trans ht) hrefused

/-- The ends of writing a text to a path: what is answered, and the files that are left. -/
inductive Delivered (v : View σ φ) (path text : String) (s : σ) : Except Failure Unit → σ → Prop
  | unprepared {s' : σ} : v.ChangesOnly [] s s' →
      ((FileAccess.ensureParent path : StateM σ Bool).run s).1 = false →
      Delivered v path text s (.error (.operation .createExportDirectory path)) s'
  | unwritten {s₁ s' : σ} : v.ChangesOnly [] s s₁ →
      ((FileAccess.writeText path text : StateM σ Bool).run s₁).1 = false →
      v.ChangesOnly [v.file s path] s s' →
      Delivered v path text s (.error (.operation .writeExport path)) s'
  | written {s' : σ} : v.ChangesOnly [v.file s path] s s' →
      v.content? s' (v.file s path) = some text.toUTF8 →
      Delivered v path text s (.ok ()) s'

theorem changesOnly_ensureParent (hv : v.Lawful) (path : String) :
    v.ChangesOnly [] s ((FileAccess.ensureParent path : StateM σ Bool).run s).2 := by
  rw [FileAccess.ensureParent]
  split
  · exact .refl [] s
  · exact hv.createDirectories _ s

theorem exists_outcome_writeExport (hv : v.Lawful) (path text : String) :
    ∃ r s', outcome (writeExport path text) shelf s = ⟨r, shelf, s'⟩ ∧
      Delivered v path text s r s' := by
  have hprepared := changesOnly_ensureParent s hv path
  simp only [writeExport, outcome_bind, outcome_ask]
  cases hmade : (FileAccess.ensureParent path : StateM σ Bool).run s with
  | mk made s₁ =>
    rw [hmade] at hprepared
    cases made with
    | false => exact ⟨_, _, rfl, .unprepared hprepared (congrArg Prod.fst hmade)⟩
    | true =>
      have hwritten := hv.written path text s₁
      have hchanged := hprepared.trans (hv.writeText path text s₁)
      rw [hprepared.file path] at hwritten hchanged
      simp only [Bool.not_true, Bool.false_eq_true, ↓reduceIte, outcome_bind, outcome_ask]
      cases hwrote : (FileAccess.writeText path text : StateM σ Bool).run s₁ with
      | mk wrote s₂ =>
        rw [hwrote] at hwritten hchanged
        cases wrote with
        | false =>
          exact ⟨_, _, rfl, .unwritten hprepared (congrArg Prod.fst hwrote) hchanged⟩
        | true => exact ⟨_, _, rfl, .written hchanged (hwritten rfl)⟩

/-- Only the file of the path may change. -/
theorem Delivered.changesOnly {path text : String} {s s' : σ} {r : Except Failure Unit}
    (h : Delivered v path text s r s') : v.ChangesOnly [v.file s path] s s' := by
  cases h with
  | unprepared hchanged _ => exact hchanged.mono (List.nil_subset _)
  | unwritten _ _ hchanged => exact hchanged
  | written hchanged _ => exact hchanged

theorem Delivered.fails {path text : String} {s s' : σ} {e : Failure}
    (h : Delivered v path text s (.error e) s') : Fails v path [] s e := by
  cases h with
  | unprepared _ hrefused => exact .unprepared (.refl [] s) hrefused
  | unwritten hunchanged hrefused _ => exact .unwritten hunchanged hrefused

/-! ## Writing both files -/

/-- The path of the style sheet in a directory. -/
def cssPath (directory : String) : String := join directory cssFile

/-- The path of the theme module in a directory. -/
def tailwindPath (directory : String) : String := join directory tailwindFile

theorem isName_cssFile : IsName cssFile := ⟨by decide, by decide, by decide, by decide⟩

theorem isName_tailwindFile : IsName tailwindFile := ⟨by decide, by decide, by decide, by decide⟩

/-- Both files are different ones. -/
theorem file_cssPath_ne (hv : v.Lawful) (directory : String) :
    v.file s (cssPath directory) ≠ v.file s (tailwindPath directory) :=
  hv.apart s directory _ _ isName_cssFile isName_tailwindFile (by decide)

/-- The ends of writing the exports of a library into a directory. -/
inductive Exported (v : View σ φ) (lib : Library) (directory : String) (shelf : Shelf) (s : σ) :
    Except Failure (List String) → σ → Prop
  | unloadable {before later : List String} {category : String} {e : Failure} :
      exportCategories = before ++ category :: later →
      (∀ k ∈ before, ∃ b, lib.loaded shelf s k = .ok b) → lib.loaded shelf s category = .error e →
      Exported v lib directory shelf s (.error e) s
  | cssFailed {texts : Exports} {s' : σ} {e : Failure} :
      lib.exportsOf (lib.loaded shelf s) = .ok texts →
      Delivered v (cssPath directory) texts.css s (.error e) s' →
      Exported v lib directory shelf s (.error e) s'
  | tailwindFailed {texts : Exports} {s₁ s' : σ} {e : Failure} :
      lib.exportsOf (lib.loaded shelf s) = .ok texts →
      Delivered v (cssPath directory) texts.css s (.ok ()) s₁ →
      Delivered v (tailwindPath directory) texts.tailwind s₁ (.error e) s' →
      Exported v lib directory shelf s (.error e) s'
  | written {texts : Exports} {s₁ s' : σ} :
      lib.exportsOf (lib.loaded shelf s) = .ok texts →
      Delivered v (cssPath directory) texts.css s (.ok ()) s₁ →
      Delivered v (tailwindPath directory) texts.tailwind s₁ (.ok ()) s' →
      Exported v lib directory shelf s (.ok [cssPath directory, tailwindPath directory]) s'

theorem exported_writeExports (hv : v.Lawful) (directory : String) :
    Exported v lib directory shelf s (outcome (lib.writeExports directory) shelf s).answer
      (outcome (lib.writeExports directory) shelf s).files := by
  obtain ⟨shelf', hexports⟩ := exists_outcome_exports lib shelf s hv
  simp only [writeExports, outcome_bind, hexports]
  cases htexts : lib.exportsOf (lib.loaded shelf s) with
  | error e =>
    obtain ⟨before, category, later, hall, -, hfailed, hbefore⟩ :=
      exists_of_exportsOf_error lib htexts
    exact .unloadable hall hbefore hfailed
  | ok texts =>
    obtain ⟨r, s₁, hcss, hdelivered⟩ :=
      exists_outcome_writeExport shelf' s hv (cssPath directory) texts.css
    obtain ⟨r', s', htailwind, hdelivered'⟩ :=
      exists_outcome_writeExport shelf' s₁ hv (tailwindPath directory) texts.tailwind
    rw [cssPath] at hcss
    rw [tailwindPath] at htailwind
    simp only [hcss]
    cases r with
    | error e => exact .cssFailed htexts hdelivered
    | ok _ =>
      simp only [htailwind]
      cases r' with
      | error e => exact .tailwindFailed htexts hdelivered hdelivered'
      | ok _ => exact .written htexts hdelivered hdelivered'

namespace Exported

variable {lib shelf s} {directory : String} {r : Except Failure (List String)} {s' : σ}

/-- The second file is where it was before the first was written. -/
theorem changesOnly_tailwind {path text path' text' : String} {s₁ : σ} {r r' : Except Failure Unit}
    (h : Delivered v path text s r s₁) (h' : Delivered v path' text' s₁ r' s') :
    v.ChangesOnly [v.file s path'] s₁ s' := by
  rw [← h.changesOnly.file path']
  exact h'.changesOnly

theorem changesOnly (h : Exported v lib directory shelf s r s') :
    v.ChangesOnly [v.file s (cssPath directory), v.file s (tailwindPath directory)] s s' := by
  cases h with
  | unloadable _ _ _ => exact .refl _ s
  | cssFailed _ hcss => exact hcss.changesOnly.mono (List.cons_subset_cons _ (List.nil_subset _))
  | tailwindFailed _ hcss htailwind =>
    exact hcss.changesOnly.trans (changesOnly_tailwind hcss htailwind)
  | written _ hcss htailwind =>
    exact hcss.changesOnly.trans (changesOnly_tailwind hcss htailwind)

/-- Each file holds its text when both have been written. -/
theorem contents (hv : v.Lawful) {paths : List String}
    (h : Exported v lib directory shelf s (.ok paths) s') :
    paths = [cssPath directory, tailwindPath directory] ∧
      ∃ texts, lib.exportsOf (lib.loaded shelf s) = .ok texts ∧
        v.content? s' (v.file s (cssPath directory)) = some texts.css.toUTF8 ∧
        v.content? s' (v.file s (tailwindPath directory)) = some texts.tailwind.toUTF8 := by
  cases h with
  | @written texts s₁ _ htexts hcss htailwind =>
    have hchanged := changesOnly_tailwind hcss htailwind
    have hfile := hcss.changesOnly.file (tailwindPath directory)
    cases hcss with
    | written _ hcontent =>
      cases htailwind with
      | written _ hcontent' =>
        refine ⟨rfl, texts, htexts, ?_, hfile ▸ hcontent'⟩
        rw [← hcontent]
        exact hchanged.content?_of_ne (file_cssPath_ne s hv directory)

/-- The theme module is not touched before the style sheet has been written and its own directory
been made. -/
theorem untouched (hv : v.Lawful) {action : FileAction} {path : String}
    (h : Exported v lib directory shelf s (.error (.operation action path)) s')
    (hfailed : action = .createExportDirectory ∨ path = cssPath directory) :
    v.content? s' (v.file s (tailwindPath directory)) =
      v.content? s (v.file s (tailwindPath directory)) := by
  have hne := (file_cssPath_ne s hv directory).symm
  cases h with
  | unloadable _ _ _ => rfl
  | cssFailed _ hcss => exact hcss.changesOnly.content?_of_ne hne
  | @tailwindFailed _ s₁ _ _ _ hcss htailwind =>
    have hcontent := hcss.changesOnly.content?_of_ne hne
    cases htailwind with
    | unprepared hchanged _ => exact (hchanged.content? _ List.not_mem_nil).trans hcontent
    | unwritten _ _ _ =>
      rcases hfailed with hfailed | hfailed
      · cases hfailed
      · exact absurd (congrArg (v.file s) hfailed) hne

/-- What fails is a bundle or one of the two files, and before it fails no other file than the style
sheet has changed. -/
theorem failed {e : Failure} (h : Exported v lib directory shelf s (.error e) s') :
    (∃ category ∈ exportCategories, lib.loaded shelf s category = .error e) ∨
      ∃ path ∈ [cssPath directory, tailwindPath directory],
        Fails v path [v.file s (cssPath directory)] s e := by
  cases h with
  | unloadable hall _ hfailed =>
    refine .inl ⟨_, ?_, hfailed⟩
    rw [hall]
    exact List.mem_append_right _ (.head _)
  | cssFailed _ hcss => exact .inr ⟨_, .head _, hcss.fails.after (.refl [_] s)⟩
  | tailwindFailed _ hcss htailwind =>
    exact .inr ⟨_, .tail _ (.head _), htailwind.fails.after hcss.changesOnly⟩

/-- Where a bundle cannot be loaded, the first one that cannot is what fails, and nothing has
changed. -/
theorem unloadable_of_error {category : String} {e : Failure} (hmem : category ∈ exportCategories)
    (hcategory : lib.loaded shelf s category = .error e)
    (h : Exported v lib directory shelf s r s') :
    ∃ before first later e', exportCategories = before ++ first :: later ∧
      (∀ k ∈ before, ∃ b, lib.loaded shelf s k = .ok b) ∧ lib.loaded shelf s first = .error e' ∧
      r = .error e' ∧ s' = s := by
  have habsurd {texts : Exports} (htexts : lib.exportsOf (lib.loaded shelf s) = .ok texts) :
      False := by
    obtain ⟨b, hb⟩ := exists_of_exportsOf_ok lib htexts category hmem
    exact nomatch hcategory.symm.trans hb
  cases h with
  | unloadable hall hbefore hfailed => exact ⟨_, _, _, _, hall, hbefore, hfailed, rfl, rfl⟩
  | cssFailed htexts _ => exact (habsurd htexts).elim
  | tailwindFailed htexts _ _ => exact (habsurd htexts).elim
  | written htexts _ _ => exact (habsurd htexts).elim

end Exported

/-- What writing the exports of a library into a directory answers and what it does to files. -/
structure WritesExports (v : View σ φ) (lib : Library) (directory : String) (shelf : Shelf)
    (s : σ) (r : Except Failure (List String)) (s' : σ) : Prop where
  /-- If a bundle cannot be loaded, the first that cannot says why, and nothing has changed. -/
  unloadable : ∀ category ∈ exportCategories, ∀ e, lib.loaded shelf s category = .error e →
    ∃ before first later e', exportCategories = before ++ first :: later ∧
      (∀ k ∈ before, ∃ b, lib.loaded shelf s k = .ok b) ∧ lib.loaded shelf s first = .error e' ∧
      r = .error e' ∧ s' = s
  /-- If it succeeds, it answers both paths, and there are the texts that rendering answers. -/
  written : ∀ paths, r = .ok paths → paths = [cssPath directory, tailwindPath directory] ∧
    ∃ texts, (outcome lib.exports shelf s).answer = .ok texts ∧
      v.content? s' (v.file s (cssPath directory)) = some texts.css.toUTF8 ∧
      v.content? s' (v.file s (tailwindPath directory)) = some texts.tailwind.toUTF8
  /-- Whatever happens, no other file has changed. -/
  others : v.ChangesOnly [v.file s (cssPath directory), v.file s (tailwindPath directory)] s s'
  /-- If a directory cannot be made or the style sheet not be written, the theme module has not been
  touched. -/
  untouched : ∀ action path, r = .error (.operation action path) →
    action = .createExportDirectory ∨ path = cssPath directory →
    v.content? s' (v.file s (tailwindPath directory)) =
      v.content? s (v.file s (tailwindPath directory))
  /-- It fails only where a bundle cannot be loaded or one of the two files not be written, and
  before it fails no other file than the style sheet has changed. -/
  failed : ∀ e, r = .error e →
    (∃ category ∈ exportCategories, lib.loaded shelf s category = .error e) ∨
    ∃ path ∈ [cssPath directory, tailwindPath directory],
      Fails v path [v.file s (cssPath directory)] s e

/-- **Writing exports changes nothing before all bundles have been loaded, and then the two files
only**, for any files, any bundles that have been kept and any directory. A success leaves both
texts in their files, and a failure says what it was that failed. -/
theorem writesExports (hv : v.Lawful) (directory : String) :
    WritesExports v lib directory shelf s (outcome (lib.writeExports directory) shelf s).answer
      (outcome (lib.writeExports directory) shelf s).files := by
  have hexported := exported_writeExports lib shelf s hv directory
  obtain ⟨shelf', hexports⟩ := exists_outcome_exports lib shelf s hv
  exact
    { unloadable := fun _ hmem _ hcategory => hexported.unloadable_of_error hmem hcategory
      written := by
        intro paths hpaths
        rw [hpaths] at hexported
        rw [hexports]
        exact hexported.contents hv
      others := hexported.changesOnly
      untouched := by
        intro action path hfailed
        rw [hfailed] at hexported
        exact hexported.untouched hv
      failed := by
        intro e hfailed
        rw [hfailed] at hexported
        exact hexported.failed }

end Lawful

/-- Two bundles that have been kept. -/
def keptTwo : Shelf := [
  ("typography", ⟨"typography", none, [], []⟩),
  ("colors", ⟨"colors", none, [], [("elevation", .object [("flat", .text "none")])]⟩)]

/-- Files with the third bundle, and no directory for exports. -/
def filesOfThird : Store :=
  (((⟨[], ["work"]⟩ : Store).put ["work"] .directory).put ["work", "tokens"] .directory).put
    ["work", "tokens", "components.json"] (.file "\x7b\"components\": \x7b\x7d\x7d".toUTF8)

theorem writesExports_filesOfThird :
    let r := outcome (writeExports ⟨"tokens", "p"⟩ "dist/css") keptTwo filesOfThird
    Store.view.Lawful ∧
      WritesExports Store.view ⟨"tokens", "p"⟩ "dist/css" keptTwo filesOfThird r.answer r.files ∧
      r.answer.toOption = some ["dist/css/design-tokens.css", "dist/css/tailwind.tokens.cjs"] ∧
      r.files.contentAt? ["work", "dist", "css", "design-tokens.css"] =
        some ":root \x7b\n  --p-elevation-flat: none;\n\x7d\n".toUTF8 := by
  intro r
  exact ⟨Store.lawful, writesExports ⟨"tokens", "p"⟩ keptTwo filesOfThird Store.lawful "dist/css",
    by decide +kernel, by decide +kernel⟩

end Library

end Downline.Token
