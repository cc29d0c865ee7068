import Downline.Proofs.Arena.Nested
import Downline.Proofs.Arena.Placing
import Mathlib.Logic.Equiv.Basic

/-!
# Arenas that differ in their handles only

Handles are numbers in order of insertion, so two members that are inserted in either order get each
other's handle. `Renamed` says that two arenas are the same but for a renaming of handles. They show
the same nested tree (`Renamed.organization?_eq`) and have the same drawing (`Renamed.drawing_eq`),
since neither says a handle. Insertions below two different nodes commute in this sense
(`Sound.renamed_insert_insert`).
-/

namespace Downline.Arena

/-- The second arena is the first one with handles renamed. -/
structure Renamed (σ : Nat → Nat) (a b : Arena) : Prop where
  root : b.root = a.root.map σ
  size : b.size = a.size
  node : ∀ {h n}, a.node? h = some n → ∃ m, b.node? (σ h) = some m ∧ m.member = n.member ∧
    m.leg = n.leg ∧ m.children = n.children.map σ

namespace Renamed

variable {σ : Nat → Nat} {a b : Arena} (hr : Renamed σ a b) (ha : a.Sound)

include hr ha

theorem shows_of_shows {h : Nat} {o : Organization} (ho : a.Shows h o) : b.Shows (σ h) o := by
  obtain ⟨n, hn⟩ : ∃ n, a.node? h = some n := by
    obtain ⟨m, cs⟩ := o
    obtain ⟨n, hn, -⟩ := shows_node_iff.mp ho
    exact ⟨n, hn⟩
  refine ho.of_related (R := fun h k => h < a.size ∧ k = σ h) ?_ ⟨lt_size_of_node? hn, rfl⟩
  rintro h _ ⟨hlt, rfl⟩
  obtain ⟨n, hn⟩ := exists_node? hlt
  obtain ⟨m, hm, hmember, -, hchildren⟩ := hr.node hn
  refine ⟨by rw [hn, hm, Option.map_some, Option.map_some, hmember], ?_⟩
  rw [childrenOf_eq hn, childrenOf_eq hm, hchildren, List.forall₂_map_right_iff,
    List.forall₂_same]
  exact fun c hc => ⟨ha.child_lt_size (childrenOf_eq hn ▸ hc), rfl⟩

theorem organization?_eq (hb : b.Sound) : b.organization? = a.organization? := by
  cases hroot : a.root with
  | none =>
    have hnone : b.root = none := by rw [hr.root, hroot, Option.map_none]
    simp [organization?, hroot, hnone]
  | some r =>
    obtain ⟨o, ho, hshows⟩ := ha.exists_organization? hroot
    have hsome : b.root = some (σ r) := by rw [hr.root, hroot, Option.map_some]
    rw [ho, hb.organization?_eq_some hsome (hr.shows_of_shows ha hshows)]

/-- The second walk meets the same labels in the same order, each with as many children. -/
theorem map_postorderFrom (fuel : Nat) {pending : List (Nat × Bool)}
    (hlive : ∀ e ∈ pending, e.1 < a.size) :
    (b.postorderFrom fuel (pending.map fun e => (σ e.1, e.2))).map
        (fun (_, n) => (nodeLabel n, n.children.length)) =
      (a.postorderFrom fuel pending).map fun (_, n) => (nodeLabel n, n.children.length) := by
  induction fuel generalizing pending with
  | zero => rfl
  | succ fuel ih =>
    cases pending with
    | nil => rfl
    | cons e rest =>
      obtain ⟨h, met⟩ := e
      obtain ⟨n, hn⟩ := exists_node? (hlive _ List.mem_cons_self)
      obtain ⟨m, hm, hmember, hleg, hchildren⟩ := hr.node hn
      have hrest : ∀ e ∈ rest, e.1 < a.size := fun e he => hlive e (List.mem_cons_of_mem _ he)
      cases met with
      | true =>
        have hlabel : nodeLabel m = nodeLabel n := by rw [nodeLabel, nodeLabel, hmember, hleg]
        simp [postorderFrom, hn, hm, hlabel, hchildren, ih hrest]
      | false =>
        have hnext : ∀ e ∈ n.children.map (·, false) ++ (h, true) :: rest, e.1 < a.size := by
          intro e he
          rcases List.mem_append.mp he with he | he
          · obtain ⟨c, hc, rfl⟩ := List.mem_map.mp he
            exact ha.child_lt_size (childrenOf_eq hn ▸ hc)
          · rcases List.mem_cons.mp he with rfl | he
            · exact lt_size_of_node? hn
            · exact hrest e he
        have hpending := ih hnext
        simp only [List.map_append, List.map_map, List.map_cons, Function.comp_def] at hpending
        simp only [List.map_cons, postorderFrom, hn, hm, hchildren, Bool.false_eq_true, if_false,
          List.map_map, Function.comp_def]
        exact hpending

theorem drawing_eq : b.drawing = a.drawing := by
  have hlive : ∀ e ∈ a.root.toList.map (·, false), e.1 < a.size := by
    intro e he
    obtain ⟨h, hh, rfl⟩ := List.mem_map.mp he
    exact ha.root_live h hh
  have hwalk := hr.map_postorderFrom ha (2 * a.size) hlive
  have hroot : b.root.toList.map (·, false) =
      (a.root.toList.map (·, false)).map fun e => (σ e.1, e.2) := by
    rw [hr.root]
    cases a.root <;> rfl
  rw [drawing, drawing, postorder, postorder, hr.size, hroot, hwalk]

end Renamed

/-! ## Two insertions -/

section Insert

variable {a : Arena} {p q : Nat} {above above' : ArenaNode} (hp : a.node? p = some above)
  (hq : a.node? q = some above') (x y : Member) (leg leg' : Option Leg)

include hp hq

theorem node?_insert_insert_first :
    ((a.insert x (some p) leg).1.insert y (some q) leg').1.node? a.size =
      some ⟨x, .below p, [], leg, above.depth + 1⟩ := by
  have hnew := node?_insert_new a x (some p) leg
  have hne : some q ≠ some a.size := fun h => Nat.ne_of_lt (lt_size_of_node? hq) (Option.some.inj h)
  rw [node?_insert y (some q) leg' hnew, adopting_of_ne _ hne, id_eq, newcomer_below x leg hp]

omit hp in
theorem node?_insert_insert_second :
    ∃ depth, ((a.insert x (some p) leg).1.insert y (some q) leg').1.node? (a.size + 1) =
      some ⟨y, .below q, [], leg', depth⟩ := by
  have hthere := node?_insert x (some p) leg hq
  have hnew := node?_insert_new (a.insert x (some p) leg).1 y (some q) leg'
  rw [size_insert, newcomer_below y leg' hthere] at hnew
  exact ⟨_, hnew⟩

omit hp hq in
theorem node?_insert_insert_old (hpq : p ≠ q) {h : Nat} {n : ArenaNode} (hn : a.node? h = some n) :
    ∃ m, ((a.insert x (some p) leg).1.insert y (some q) leg').1.node? h = some m ∧
      m.member = n.member ∧ m.leg = n.leg ∧
      m.children =
        n.children ++ if p = h then [a.size] else if q = h then [a.size + 1] else [] := by
  refine ⟨_, node?_insert y (some q) leg' (node?_insert x (some p) leg hn), ?_, ?_, ?_⟩
  · rw [member_adopting, member_adopting]
  · rw [leg_adopting, leg_adopting]
  · rw [children_adopting, children_adopting, size_insert, List.append_assoc]
    by_cases hph : p = h
    · have hqh : q ≠ h := hph ▸ hpq.symm
      simp [hph, hqh]
    · simp [hph]

/-- **Insertions below two nodes commute**, up to the handles of the two new nodes. -/
theorem Sound.renamed_insert_insert (ha : a.Sound) (hpq : p ≠ q) :
    Renamed (Equiv.swap a.size (a.size + 1))
      ((a.insert x (some p) leg).1.insert y (some q) leg').1
      ((a.insert y (some q) leg').1.insert x (some p) leg).1 where
  root := by
    simp only [root_insert, reduceCtorEq, if_false]
    cases hr : a.root with
    | none => rfl
    | some r =>
      have hlt := ha.root_lt_size hr
      rw [Option.map_some, Equiv.swap_apply_of_ne_of_ne (by omega) (by omega)]
  size := by simp only [size_insert]
  node := by
    intro h n hn
    have hlt := lt_size_of_node? hn
    rw [size_insert, size_insert] at hlt
    obtain hold | rfl | rfl : h < a.size ∨ h = a.size ∨ h = a.size + 1 := by omega
    · obtain ⟨old, hh⟩ := exists_node? hold
      obtain ⟨n', hn', hmember, hleg, hchildren⟩ :=
        node?_insert_insert_old x y leg leg' hpq hh
      obtain rfl := Option.some.inj (hn.symm.trans hn')
      obtain ⟨m, hm, hmember', hleg', hchildren'⟩ :=
        node?_insert_insert_old y x leg' leg hpq.symm hh
      rw [Equiv.swap_apply_of_ne_of_ne (by omega) (by omega)]
      refine ⟨m, hm, hmember'.trans hmember.symm, hleg'.trans hleg.symm, ?_⟩
      have hsame : old.children.map (Equiv.swap a.size (a.size + 1)) = old.children := by
        refine (List.map_congr_left fun c hc => ?_).trans (List.map_id _)
        have hlt := ha.child_lt_size (childrenOf_eq hh ▸ hc)
        exact Equiv.swap_apply_of_ne_of_ne (by omega) (by omega)
      rw [hchildren, hchildren', List.map_append, hsame]
      by_cases hph : p = h
      · have hqh : q ≠ h := hph ▸ hpq.symm
        simp [hph, hqh]
      · by_cases hqh : q = h <;> simp [hph, hqh]
    · obtain ⟨depth, hsecond⟩ := node?_insert_insert_second hp y x leg' leg
      rw [node?_insert_insert_first hp hq] at hn
      cases hn
      rw [Equiv.swap_apply_left]
      exact ⟨_, hsecond, rfl, rfl, rfl⟩
    · obtain ⟨depth, hsecond⟩ := node?_insert_insert_second hq x y leg leg'
      cases hn.symm.trans hsecond
      rw [Equiv.swap_apply_right]
      exact ⟨_, node?_insert_insert_first hq hp y x leg' leg, rfl, rfl, rfl⟩

end Insert

end Downline.Arena
