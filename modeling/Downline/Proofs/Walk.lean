import Mathlib.Algebra.Ring.Nat
import Mathlib.Data.List.Nodup
import Mathlib.Data.List.Forall2
import Mathlib.Data.List.Perm.Subperm

/-!
# Depth-first walks

A walk visits one thing after the other. What is still to be visited stands in a list, the next
thing in front, and what hangs below a visited thing is put in front of the rest. `visits` is what
so many steps visit, `leftover` is what they leave to be visited.

An arena is grown from records along such a walk and looked through by another, so what both need
is said here once, of any things and of any function `next` that lists what hangs below one:

- where nothing hangs below two things (`Forest`), a walk from things that hang below nothing
  visits no thing twice (`Fresh.run`);
- so as many steps as there are things empty the list (`Fresh.leftover_eq_nil`), and further steps
  change nothing (`visits_of_le`);
- once the list is empty, what hangs below a visited thing has been visited
  (`next_subset_visits`).

A walk that deals with the front of its list before it looks at the rest falls into parts
(`Passes`), and parts one after the other are a part again (`Passes.append`).
-/

namespace Downline.Walk

variable {α β : Type*} {next : α → List α}

/-- What a walk visits in so many steps, from a list of pending things on. -/
def visits (next : α → List α) : Nat → List α → List α
  | 0, _ => []
  | _ + 1, [] => []
  | fuel + 1, x :: rest => x :: visits next fuel (next x ++ rest)

/-- What is pending after so many steps. -/
def leftover (next : α → List α) : Nat → List α → List α
  | 0, pending => pending
  | _ + 1, [] => []
  | fuel + 1, x :: rest => leftover next fuel (next x ++ rest)

@[simp] theorem visits_nil (fuel : Nat) : visits next fuel [] = [] := by
  cases fuel <;> rfl

/-! ## What a walk meets -/

theorem pending_subset (next : α → List α) (fuel : Nat) (pending : List α) :
    pending ⊆ visits next fuel pending ++ leftover next fuel pending := by
  induction fuel generalizing pending with
  | zero => exact fun _ hx => hx
  | succ fuel ih =>
    cases pending with
    | nil => exact List.nil_subset _
    | cons x rest =>
      refine List.cons_subset_cons x ?_
      exact List.Subset.trans (List.subset_append_right (next x) rest) (ih (next x ++ rest))

theorem next_subset {fuel : Nat} {pending : List α} {x : α} (hx : x ∈ visits next fuel pending) :
    next x ⊆ visits next fuel pending ++ leftover next fuel pending := by
  induction fuel generalizing pending with
  | zero => cases hx
  | succ fuel ih =>
    cases pending with
    | nil => cases hx
    | cons z rest =>
      refine List.Subset.trans ?_ (List.subset_cons_self z _)
      rcases List.mem_cons.mp hx with rfl | hx
      · exact List.Subset.trans (List.subset_append_left (next x) rest) (pending_subset next fuel _)
      · exact ih hx

/-- Once nothing is pending, what hangs below a visited thing has been visited. -/
theorem next_subset_visits {fuel : Nat} {pending : List α} {x : α}
    (hdone : leftover next fuel pending = []) (hx : x ∈ visits next fuel pending) :
    next x ⊆ visits next fuel pending := by
  have h := next_subset hx
  rwa [hdone, List.append_nil] at h

/-- A walk meets nothing but what its start leads to: what holds of the pending things, and of all
that hangs below a thing of which it holds, holds of everything visited or left. -/
theorem induction_on {P : α → Prop} {fuel : Nat} {pending : List α}
    (hpending : ∀ x ∈ pending, P x) (hnext : ∀ x, P x → ∀ y ∈ next x, P y) :
    ∀ y ∈ visits next fuel pending ++ leftover next fuel pending, P y := by
  induction fuel generalizing pending with
  | zero => exact hpending
  | succ fuel ih =>
    cases pending with
    | nil => intro y hy; cases hy
    | cons x rest =>
      have hx : P x := hpending x List.mem_cons_self
      intro y hy
      rcases List.mem_cons.mp hy with rfl | hy
      · exact hx
      · refine ih ?_ y hy
        intro z hz
        rcases List.mem_append.mp hz with hz | hz
        · exact hnext x hx z hz
        · exact hpending z (List.mem_cons_of_mem x hz)

/-- Two walks side by side: if related things have related things below them, in the same order,
then related starts lead to related visits. -/
theorem forall₂_visits {next' : β → List β} {R : α → β → Prop}
    (hnext : ∀ x y, R x y → List.Forall₂ R (next x) (next' y)) (fuel : Nat)
    {pending : List α} {pending' : List β} (h : List.Forall₂ R pending pending') :
    List.Forall₂ R (visits next fuel pending) (visits next' fuel pending') := by
  induction fuel generalizing pending pending' with
  | zero => exact .nil
  | succ fuel ih =>
    cases h with
    | nil => exact .nil
    | cons hxy hrest => exact .cons hxy (ih (List.rel_append (hnext _ _ hxy) hrest))

/-! ## Steps -/

theorem length_visits {fuel : Nat} {pending : List α} (h : leftover next fuel pending ≠ []) :
    (visits next fuel pending).length = fuel := by
  induction fuel generalizing pending with
  | zero => rfl
  | succ fuel ih =>
    cases pending with
    | nil => exact absurd rfl h
    | cons x rest => exact congrArg (· + 1) (ih h)

/-- A walk with nothing pending visits nothing more, however many steps it is given. -/
theorem visits_of_le {fuel more : Nat} {pending : List α}
    (hdone : leftover next fuel pending = []) (hle : fuel ≤ more) :
    visits next more pending = visits next fuel pending := by
  induction fuel generalizing more pending with
  | zero =>
    cases hdone
    exact visits_nil more
  | succ fuel ih =>
    cases pending with
    | nil => simp only [visits_nil]
    | cons x rest =>
      obtain ⟨more, rfl⟩ : ∃ m, more = m + 1 := ⟨more - 1, by omega⟩
      exact congrArg (x :: ·) (ih hdone (Nat.le_of_succ_le_succ hle))

/-! ## Parts -/

/-- So many steps of a walk deal with what is pending, whatever else is pending behind it, and
meet `met`. -/
def Passes (walk : Nat → List α → List β) (steps : Nat) (pending : List α) (met : List β) : Prop :=
  ∀ fuel rest, walk (steps + fuel) (pending ++ rest) = met ++ walk fuel rest

namespace Passes

variable {walk : Nat → List α → List β} {steps steps' : Nat} {pending pending' : List α}
  {met met' : List β}

theorem nil : Passes walk 0 [] [] := fun fuel rest => by
  rw [Nat.zero_add, List.nil_append, List.nil_append]

theorem append (h : Passes walk steps pending met) (h' : Passes walk steps' pending' met') :
    Passes walk (steps + steps') (pending ++ pending') (met ++ met') := fun fuel rest => by
  rw [Nat.add_assoc, List.append_assoc, h, h', List.append_assoc]

/-- Parts for things in a row, one after the other. -/
theorem flatMap {ι : Type*} {xs : List ι} {count : ι → Nat} {todo : ι → List α}
    {found : ι → List β} (h : ∀ x ∈ xs, Passes walk (count x) (todo x) (found x)) :
    Passes walk (xs.map count).sum (xs.flatMap todo) (xs.flatMap found) := by
  induction xs with
  | nil => exact nil
  | cons x xs ih =>
    obtain ⟨hx, hxs⟩ := List.forall_mem_cons.mp h
    rw [List.map_cons, List.sum_cons, List.flatMap_cons, List.flatMap_cons]
    exact hx.append (ih hxs)

/-- With nothing else pending, further steps make no difference. -/
theorem eq_of_le (h : Passes walk steps pending met) (hnil : ∀ fuel, walk fuel [] = [])
    {fuel : Nat} (hle : steps ≤ fuel) : walk fuel pending = met := by
  have hrun := h (fuel - steps) []
  rwa [Nat.add_sub_cancel' hle, hnil, List.append_nil, List.append_nil] at hrun

end Passes

/-! ## Forests -/

/-- Nothing hangs below two things, and nothing twice below one. -/
structure Forest (next : α → List α) : Prop where
  nodup : ∀ x, (next x).Nodup
  unique : ∀ {x y z}, z ∈ next x → z ∈ next y → x = y

/-- A walk that has visited `seen` and has `pending` before it stands well: no thing is met twice,
and a thing is met only after what it hangs below has been visited. -/
structure Fresh (next : α → List α) (seen pending : List α) : Prop where
  nodup : (seen ++ pending).Nodup
  above : ∀ y ∈ seen ++ pending, ∀ x, y ∈ next x → x ∈ seen

theorem fresh_start {pending : List α} (hnodup : pending.Nodup)
    (htop : ∀ y ∈ pending, ∀ x, y ∉ next x) : Fresh next [] pending where
  nodup := hnodup
  above := fun y hy x hyx => absurd hyx (htop y hy x)

/-- A visit in a forest keeps the walk well. What hangs below the visited thing is new, since all
that has been met hangs below things visited earlier. -/
theorem Fresh.step (hforest : Forest next) {seen rest : List α} {x : α}
    (h : Fresh next seen (x :: rest)) : Fresh next (seen ++ [x]) (next x ++ rest) := by
  have hmet : (seen ++ [x]) ++ rest = seen ++ x :: rest := List.append_cons seen x rest ▸ rfl
  have hx : x ∉ seen := fun hx =>
    List.disjoint_of_nodup_append h.nodup hx List.mem_cons_self
  have hnew : List.Disjoint (next x) ((seen ++ [x]) ++ rest) := by
    intro y hy hmem
    rw [hmet] at hmem
    exact hx (h.above y hmem x hy)
  have hperm : ((seen ++ [x]) ++ (next x ++ rest)).Perm (next x ++ ((seen ++ [x]) ++ rest)) := by
    rw [← List.append_assoc, ← List.append_assoc (next x)]
    exact List.perm_append_comm.append_right rest
  refine ⟨hperm.nodup_iff.mpr ?_, ?_⟩
  · exact (hforest.nodup x).append (hmet ▸ h.nodup) hnew
  · intro y hy z hyz
    rcases List.mem_append.mp (hperm.mem_iff.mp hy) with hy | hy
    · obtain rfl : x = z := hforest.unique hy hyz
      exact List.mem_append_right seen (List.mem_singleton_self x)
    · rw [hmet] at hy
      exact List.mem_append_left [x] (h.above y hy z hyz)

theorem Fresh.run (hforest : Forest next) {seen pending : List α} (h : Fresh next seen pending)
    (fuel : Nat) :
    Fresh next (seen ++ visits next fuel pending) (leftover next fuel pending) := by
  induction fuel generalizing seen pending with
  | zero => rwa [visits, leftover, List.append_nil]
  | succ fuel ih =>
    cases pending with
    | nil => rwa [visits, leftover, List.append_nil]
    | cons x rest =>
      have hnext := ih (h.step hforest)
      rwa [List.append_assoc] at hnext

/-- If all that a walk in a forest can meet is among certain things, as many steps as there are
things leave nothing pending: a walk that is not over has visited as many things as it made
steps, and another one is waiting. -/
theorem Fresh.leftover_eq_nil (hforest : Forest next) {seen pending : List α} {fuel : Nat}
    (h : Fresh next seen pending) (things : List α) (hseen : seen ⊆ things)
    (hpending : pending ⊆ things) (hclosed : ∀ x ∈ things, next x ⊆ things)
    (hfuel : things.length ≤ seen.length + fuel) : leftover next fuel pending = [] := by
  by_contra hmore
  have hmet : visits next fuel pending ++ leftover next fuel pending ⊆ things :=
    fun y hy => induction_on (fun x hx => hpending hx) (fun x hx y hy => hclosed x hx hy) y hy
  have hall : seen ++ visits next fuel pending ++ leftover next fuel pending ⊆ things := by
    rw [List.append_assoc]
    exact List.append_subset.mpr ⟨hseen, hmet⟩
  have hlen := ((h.run hforest fuel).nodup.subperm hall).length_le
  have hpos := List.length_pos_iff.mpr hmore
  simp only [List.length_append, length_visits hmore] at hlen
  omega

end Downline.Walk
