import Downline.Arena.Placement
import Downline.Proofs.Arena.Preorder

/-!
# The search for a free leg

`Finds` says without a bound on steps what the search through a queue finds: the first candidate
with a free leg, where a candidate with both legs taken sends the nodes on them to the end of the
queue. What the search answers is found (`finds_of_freeLegFrom`), only one thing can be found
(`Finds.unique`), and more steps do not change an answer (`freeLegFrom_of_le`).

The leg that is found is free, and it is at or below the start (`Finds.isOpen`). What hangs
elsewhere makes no difference (`Finds.congr`).
-/

namespace Downline.Arena

/-! ## Legs of a node -/

/-- The children of a node that stand on a leg, from left to right. -/
def standing (a : Arena) (n : ArenaNode) (leg : Leg) : List Nat :=
  n.children.filter fun c => (a.node? c).bind (·.leg) = some leg

/-- The first leg that no child of a node stands on. -/
def openLeg? (a : Arena) (n : ArenaNode) : Option Leg :=
  match a.onLeg? n .left, a.onLeg? n .right with
  | none, _ => some .left
  | some _, none => some .right
  | some _, some _ => none

/-- The children through which a search goes on: the first one on each leg. -/
def onLegs (a : Arena) (n : ArenaNode) : List Nat :=
  (a.onLeg? n .left).toList ++ (a.onLeg? n .right).toList

section Legs

variable {a : Arena} {n : ArenaNode} {leg : Leg} {c : Nat}

theorem onLeg?_eq_head? (a : Arena) (n : ArenaNode) (leg : Leg) :
    a.onLeg? n leg = (a.standing n leg).head? :=
  (List.head?_filter ..).symm

theorem onLeg?_eq_some (h : a.onLeg? n leg = some c) :
    c ∈ n.children ∧ (a.node? c).bind (·.leg) = some leg :=
  ⟨List.mem_of_find?_eq_some h, by simpa using List.find?_some h⟩

theorem mem_children_of_mem_onLegs (h : c ∈ a.onLegs n) : c ∈ n.children := by
  rcases List.mem_append.mp h with h | h
  · exact (onLeg?_eq_some (Option.mem_toList.mp h)).1
  · exact (onLeg?_eq_some (Option.mem_toList.mp h)).1

theorem standing_of_openLeg? (h : a.openLeg? n = some leg) : a.standing n leg = [] := by
  rw [← List.head?_eq_none_iff, ← onLeg?_eq_head?]
  unfold openLeg? at h
  split at h
  next hleft =>
    cases h
    exact hleft
  next hright =>
    cases h
    exact hright
  next => cases h

/-- If both legs are taken, a search goes on through two children. -/
theorem exists_onLegs_eq (h : a.openLeg? n = none) :
    ∃ left right, a.onLegs n = [left, right] := by
  unfold openLeg? at h
  split at h
  next => cases h
  next => cases h
  next left right hleft hright =>
    refine ⟨left, right, ?_⟩
    rw [onLegs, hleft, hright]
    rfl

end Legs

/-! ## What a search finds -/

/-- The first candidate with a free leg, where candidates with both legs taken send the nodes on
them to the end of the queue. -/
inductive Finds (a : Arena) : List Nat → Nat × Leg → Prop
  | here {h : Nat} {n : ArenaNode} {leg : Leg} {queue : List Nat} :
      a.node? h = some n → a.openLeg? n = some leg → Finds a (h :: queue) (h, leg)
  | further {h : Nat} {n : ArenaNode} {queue : List Nat} {seat : Nat × Leg} :
      a.node? h = some n → a.openLeg? n = none → Finds a (queue ++ a.onLegs n) seat →
      Finds a (h :: queue) seat

section Step

variable {a : Arena} {h : Nat} {n : ArenaNode} (hn : a.node? h = some n)

include hn

theorem freeLegFrom_of_open {leg : Leg} (hopen : a.openLeg? n = some leg) (fuel : Nat)
    (queue : List Nat) : a.freeLegFrom (fuel + 1) (h :: queue) = some (h, leg) := by
  unfold openLeg? at hopen
  simp only [freeLegFrom, hn]
  split at hopen
  next hleft =>
    cases hopen
    simp only [hleft]
  next hleft hright =>
    cases hopen
    simp only [hleft, hright]
  next => cases hopen

theorem freeLegFrom_of_full (hfull : a.openLeg? n = none) (fuel : Nat) (queue : List Nat) :
    a.freeLegFrom (fuel + 1) (h :: queue) = a.freeLegFrom fuel (queue ++ a.onLegs n) := by
  unfold openLeg? at hfull
  simp only [freeLegFrom, hn]
  split at hfull
  next => cases hfull
  next => cases hfull
  next left right hleft hright =>
    simp only [onLegs, hleft, hright, Option.toList_some, List.singleton_append]

end Step

theorem finds_of_freeLegFrom {a : Arena} {fuel : Nat} {queue : List Nat} {seat : Nat × Leg}
    (hfree : a.freeLegFrom fuel queue = some seat) : a.Finds queue seat := by
  induction fuel generalizing queue with
  | zero => cases hfree
  | succ fuel ih =>
    cases queue with
    | nil => cases hfree
    | cons h queue =>
      cases hn : a.node? h with
      | none =>
        simp only [freeLegFrom, hn] at hfree
        cases hfree
      | some n =>
        cases hopen : a.openLeg? n with
        | none =>
          rw [freeLegFrom_of_full hn hopen] at hfree
          exact .further hn hopen (ih hfree)
        | some leg =>
          rw [freeLegFrom_of_open hn hopen] at hfree
          cases hfree
          exact .here hn hopen

/-- An answer is the same however many more steps there are. -/
theorem freeLegFrom_of_le {a : Arena} {fuel more : Nat} {queue : List Nat} {seat : Nat × Leg}
    (hfree : a.freeLegFrom fuel queue = some seat) (hle : fuel ≤ more) :
    a.freeLegFrom more queue = some seat := by
  induction fuel generalizing more queue with
  | zero => cases hfree
  | succ fuel ih =>
    obtain ⟨more, rfl⟩ : ∃ m, more = m + 1 := ⟨more - 1, by omega⟩
    cases queue with
    | nil => cases hfree
    | cons h queue =>
      cases hn : a.node? h with
      | none =>
        simp only [freeLegFrom, hn] at hfree
        cases hfree
      | some n =>
        cases hopen : a.openLeg? n with
        | none =>
          rw [freeLegFrom_of_full hn hopen] at hfree ⊢
          exact ih hfree (Nat.le_of_succ_le_succ hle)
        | some leg =>
          rw [freeLegFrom_of_open hn hopen] at hfree ⊢
          exact hfree

namespace Finds

variable {a b : Arena} {queue : List Nat} {seat seat' : Nat × Leg}

theorem unique (h : a.Finds queue seat) (h' : a.Finds queue seat') : seat = seat' := by
  induction h with
  | here hn hopen =>
    cases h' with
    | here hn' hopen' =>
      obtain rfl := Option.some.inj (hn.symm.trans hn')
      rw [Option.some.inj (hopen.symm.trans hopen')]
    | further hn' hfull' =>
      obtain rfl := Option.some.inj (hn.symm.trans hn')
      cases hopen.symm.trans hfull'
  | further hn hfull _ ih =>
    cases h' with
    | here hn' hopen' =>
      obtain rfl := Option.some.inj (hn.symm.trans hn')
      cases hfull.symm.trans hopen'
    | further hn' hfull' h' =>
      obtain rfl := Option.some.inj (hn.symm.trans hn')
      exact ih h'

/-- What is found is a free leg of a node that the search can come to: whatever holds of the
candidates in the queue, and of the children of a node of which it holds, holds of that node. -/
theorem isOpen {P : Nat → Prop} (h : a.Finds queue seat) (hqueue : ∀ k ∈ queue, P k)
    (hbelow : ∀ k, P k → ∀ c ∈ a.childrenOf k, P c) :
    P seat.1 ∧ ∃ n, a.node? seat.1 = some n ∧ a.openLeg? n = some seat.2 := by
  induction h with
  | here hn hopen => exact ⟨hqueue _ List.mem_cons_self, _, hn, hopen⟩
  | @further h n queue seat hn hfull _ ih =>
    refine ih fun k hk => ?_
    rcases List.mem_append.mp hk with hk | hk
    · exact hqueue k (List.mem_cons_of_mem h hk)
    · refine hbelow h (hqueue h List.mem_cons_self) k ?_
      exact childrenOf_eq hn ▸ mem_children_of_mem_onLegs hk

/-- Two arenas that are the same at the candidates and below them find the same. -/
theorem congr {P : Nat → Prop} (h : a.Finds queue seat) (hqueue : ∀ k ∈ queue, P k)
    (hbelow : ∀ k, P k → ∀ c ∈ a.childrenOf k, P c) (hsame : ∀ k, P k → b.node? k = a.node? k) :
    b.Finds queue seat := by
  have honLeg : ∀ {k n}, P k → a.node? k = some n → b.onLeg? n = a.onLeg? n := by
    intro k n hk hn
    funext leg
    rw [onLeg?_eq_head?, onLeg?_eq_head?, standing, standing]
    congr 1
    refine List.filter_congr fun c hc => ?_
    rw [hsame c (hbelow k hk c (childrenOf_eq hn ▸ hc))]
  induction h with
  | @here h n leg queue hn hopen =>
    have hh := hqueue h List.mem_cons_self
    refine .here ((hsame h hh).trans hn) ?_
    rwa [openLeg?, honLeg hh hn]
  | @further h n queue seat hn hfull _ ih =>
    have hh := hqueue h List.mem_cons_self
    refine .further ((hsame h hh).trans hn) (by rwa [openLeg?, honLeg hh hn]) ?_
    rw [onLegs, honLeg hh hn]
    refine ih fun k hk => ?_
    rcases List.mem_append.mp hk with hk | hk
    · exact hqueue k (List.mem_cons_of_mem h hk)
    · exact hbelow h hh k (childrenOf_eq hn ▸ mem_children_of_mem_onLegs hk)

end Finds

end Downline.Arena
