import Downline.Proofs.Organization.Tree
import Downline.Proofs.Walk

/-!
# Unfolding into a tree

Things that each carry a member and list what hangs below them unfold into an organization:
`Unfolds label next x o` says that `o` is what `x` and all below it look like as a tree. There is
one such tree at most (`Unfolds.unique`), and there is one if going down always comes to an end
(`exists_unfolds`). Related things that list related things unfold into the same tree
(`Unfolds.of_related`), so records and the nodes of an arena can be compared through the trees
that they unfold into. What is said of a thing and its tree is proved along the unfolding, together
with what that means for things in a row (`Unfolds.ind`). In this way a depth-first walk is shown to
go through the tree from the top down (`Unfolds.visits`).
-/

namespace Downline

variable {α β : Type*} {label : α → Option Member} {next : α → List α}

inductive Unfolds (label : α → Option Member) (next : α → List α) : α → Organization → Prop
  | node {x : α} {m : Member} {cs : List Organization} : label x = some m →
      List.Forall₂ (Unfolds label next) (next x) cs → Unfolds label next x (.node m cs)

theorem unfolds_node_iff {x : α} {m : Member} {cs : List Organization} :
    Unfolds label next x (.node m cs) ↔
      label x = some m ∧ List.Forall₂ (Unfolds label next) (next x) cs := by
  constructor
  · intro h
    cases h with
    | node hm hcs => exact ⟨hm, hcs⟩
  · rintro ⟨hm, hcs⟩
    exact .node hm hcs

theorem Unfolds.label_eq {x : α} {o : Organization} (h : Unfolds label next x o) :
    label x = some o.member := by
  cases h with
  | node hm _ => exact hm

/-- Induction along an unfolding, with what is said of one thing and what is said of things in a
row: what holds of the things that a thing lists holds of it. -/
theorem Unfolds.ind {P : α → Organization → Prop} {Q : List α → List Organization → Prop}
    (node : ∀ x m cs, label x = some m → List.Forall₂ (Unfolds label next) (next x) cs →
      Q (next x) cs → P x (.node m cs))
    (nil : Q [] [])
    (cons : ∀ x o xs os, P x o → Q xs os → Q (x :: xs) (o :: os))
    {x : α} {o : Organization} (h : Unfolds label next x o) : P x o := by
  induction o using Organization.ind generalizing x with
  | node m cs ih =>
    obtain ⟨hm, hcs⟩ := unfolds_node_iff.mp h
    have hrow : ∀ {ys os}, List.Forall₂ (Unfolds label next) ys os → os ⊆ cs → Q ys os := by
      intro ys os hys hos
      induction hys with
      | nil => exact nil
      | cons hy _ ihys =>
        obtain ⟨ho, hos⟩ := List.cons_subset.mp hos
        exact cons _ _ _ _ (ih _ ho hy) (ihys hos)
    exact node x m cs hm hcs (hrow hcs (List.Subset.refl cs))

/-- Related things that list related things, in the same order, unfold into the same tree. -/
theorem Unfolds.of_related {label' : β → Option Member} {next' : β → List β} {R : α → β → Prop}
    (hR : ∀ x y, R x y → label x = label' y ∧ List.Forall₂ R (next x) (next' y))
    {x : α} {y : β} {o : Organization} (hxy : R x y) (h : Unfolds label next x o) :
    Unfolds label' next' y o := by
  induction o using Organization.ind generalizing x y with
  | node m cs ih =>
    obtain ⟨hm, hcs⟩ := unfolds_node_iff.mp h
    obtain ⟨hlabel, hnext⟩ := hR x y hxy
    refine .node (hlabel ▸ hm) (List.forall₂_iff_get.mpr ⟨?_, fun i hi hi' => ?_⟩)
    · rw [← hnext.length_eq, hcs.length_eq]
    · have hlt : i < (next x).length := hcs.length_eq ▸ hi'
      exact ih _ (List.get_mem cs _) (hnext.get hlt hi) (hcs.get hlt hi')

theorem Unfolds.unique {x : α} {o o' : Organization} (h : Unfolds label next x o)
    (h' : Unfolds label next x o') : o = o' := by
  induction o using Organization.ind generalizing x o' with
  | node m cs ih =>
    obtain ⟨m', cs'⟩ := o'
    obtain ⟨hm, hcs⟩ := unfolds_node_iff.mp h
    obtain ⟨hm', hcs'⟩ := unfolds_node_iff.mp h'
    obtain rfl : m = m' := Option.some.inj (hm.symm.trans hm')
    refine congrArg _ (List.ext_get (hcs.length_eq.symm.trans hcs'.length_eq) fun i hi hi' => ?_)
    have hlt : i < (next x).length := hcs.length_eq ▸ hi
    exact ih _ (List.get_mem cs _) (hcs.get hlt hi) (hcs'.get hlt hi')

/-- If labels tell things apart, then things that unfold into one tree along two ways list the same
things, and these unfold into the same trees again. -/
theorem Unfolds.next_eq {next' : α → List α} {x : α} {o : Organization}
    (h : Unfolds label next x o) (h' : Unfolds label next' x o)
    (hlabel : ∀ y ∈ next x, ∀ z ∈ next' x, label y = label z → y = z) :
    next x = next' x ∧ ∀ y ∈ next x, ∃ c, Unfolds label next y c ∧ Unfolds label next' y c := by
  obtain ⟨m, cs⟩ := o
  obtain ⟨-, hcs⟩ := unfolds_node_iff.mp h
  obtain ⟨-, hcs'⟩ := unfolds_node_iff.mp h'
  have hsame : next x = next' x := by
    refine List.ext_get (hcs.length_eq.trans hcs'.length_eq.symm) fun i hi hi' => ?_
    have hlt : i < cs.length := hcs.length_eq ▸ hi
    refine hlabel _ (List.get_mem _ _) _ (List.get_mem _ _) ?_
    rw [(hcs.get hi hlt).label_eq, (hcs'.get hi' hlt).label_eq]
  refine ⟨hsame, fun y hy => ?_⟩
  rw [← hsame] at hcs'
  obtain ⟨⟨i, hi⟩, rfl⟩ := List.mem_iff_get.mp hy
  have hlt : i < cs.length := hcs.length_eq ▸ hi
  exact ⟨cs.get ⟨i, hlt⟩, hcs.get hi hlt, hcs'.get hi hlt⟩

/-- Where going down from certain things leads to such things only, and comes to an end, each of
them unfolds. -/
theorem exists_unfolds {P : α → Prop} (rank : α → Nat)
    (hP : ∀ x, P x → (∃ m, label x = some m) ∧ ∀ y ∈ next x, P y ∧ rank y < rank x)
    {x : α} (hx : P x) : ∃ o, Unfolds label next x o := by
  induction hn : rank x using Nat.strongRecOn generalizing x with
  | ind n ih =>
    subst hn
    obtain ⟨⟨m, hm⟩, hnext⟩ := hP x hx
    have hall : ∀ y ∈ next x, ∃ o, Unfolds label next y o := fun y hy =>
      ih (rank y) (hnext y hy).2 (hnext y hy).1 rfl
    obtain ⟨cs, hcs⟩ : ∃ cs, List.Forall₂ (Unfolds label next) (next x) cs := by
      generalize next x = ys at hall
      induction ys with
      | nil => exact ⟨[], .nil⟩
      | cons y ys ihy =>
        obtain ⟨o, ho⟩ := hall y List.mem_cons_self
        obtain ⟨cs, hcs⟩ := ihy fun z hz => hall z (List.mem_cons_of_mem y hz)
        exact ⟨o :: cs, .cons ho hcs⟩
    exact ⟨.node m cs, .node hm hcs⟩

/-- What a thing lists unfolds into a smaller tree than the thing itself. -/
theorem Unfolds.exists_of_mem_next {x y : α} {o : Organization} (h : Unfolds label next x o)
    (hy : y ∈ next x) : ∃ c, Unfolds label next y c ∧ c.size < o.size := by
  obtain ⟨m, cs⟩ := o
  obtain ⟨-, hcs⟩ := unfolds_node_iff.mp h
  obtain ⟨⟨i, hi⟩, rfl⟩ := List.mem_iff_get.mp hy
  have hlt : i < cs.length := hcs.length_eq ▸ hi
  refine ⟨cs.get ⟨i, hlt⟩, hcs.get hi hlt, ?_⟩
  have hle := Organization.size_le_sizeAll (List.get_mem cs ⟨i, hlt⟩)
  rw [Organization.size_node]
  omega

/-! ## Walks through what unfolds -/

/-- As many steps as the tree has members visit the tree, each member before those below it. -/
theorem Unfolds.visits {x : α} {o : Organization} (h : Unfolds label next x o) :
    ∃ xs, xs.map label = o.preorder.map some ∧
      Walk.Passes (Walk.visits next) o.size [x] xs := by
  refine h.ind
    (P := fun x o => ∃ xs, xs.map label = o.preorder.map some ∧
      Walk.Passes (Walk.visits next) o.size [x] xs)
    (Q := fun ys os => ∃ xs, xs.map label = (os.flatMap Organization.preorder).map some ∧
      Walk.Passes (Walk.visits next) (Organization.sizeAll os) ys xs) ?_ ?_ ?_
  · rintro x m cs hm - ⟨xs, hxs, hwalk⟩
    refine ⟨x :: xs, by simp [hm, hxs], fun fuel rest => ?_⟩
    rw [Organization.size_node, Nat.add_right_comm, List.singleton_append, Walk.visits, hwalk,
      List.cons_append]
  · exact ⟨[], rfl, .nil⟩
  · rintro y o ys os ⟨xs, hxs, hwalk⟩ ⟨zs, hzs, hwalks⟩
    exact ⟨xs ++ zs, by simp [hxs, hzs], hwalk.append hwalks⟩

/-- So where things hang below one thing at most, a tree below a thing that hangs below nothing
has no more members than there are things to meet. -/
theorem Unfolds.size_le (hforest : Walk.Forest next) {x : α} {o : Organization}
    (h : Unfolds label next x o) (htop : ∀ y, x ∉ next y) (things : List α) (hx : x ∈ things)
    (hclosed : ∀ y ∈ things, next y ⊆ things) : o.size ≤ things.length := by
  obtain ⟨xs, hxs, hwalk⟩ := h.visits
  have hvisits : Walk.visits next o.size [x] = xs :=
    hwalk.eq_of_le Walk.visits_nil (Nat.le_refl _)
  have hfresh : Walk.Fresh next [] [x] :=
    Walk.fresh_start (List.nodup_singleton x) (by simpa using htop)
  have hnodup := (List.nodup_append.mp (hfresh.run hforest o.size).nodup).1
  have hmet : xs ⊆ things := by
    intro y hy
    refine Walk.induction_on (P := (· ∈ things)) ?_ (fun y hy z hz => hclosed y hy hz) y
      (List.mem_append_left _ (hvisits ▸ hy))
    simpa using hx
  rw [List.nil_append, hvisits] at hnodup
  have hlen := (hnodup.subperm hmet).length_le
  rwa [← List.length_map label, hxs, List.length_map, Organization.length_preorder] at hlen

end Downline
