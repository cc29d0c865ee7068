import Downline.Arena.Walk
import Downline.Proofs.Arena.Links
import Downline.Proofs.Walk
import Mathlib.Logic.Relation

/-!
# The first walk through an arena

In an arena whose links and children agree, the first walk is a depth-first walk in a forest. So
it visits each node at or below the root once and no other (`mem_preorder_iff`,
`nodup_preorder`), and more steps than there are nodes make no difference (`preorderFrom_of_le`).

Looking up an id is looking it up among the nodes at or below the root (`find?_eq_some`,
`find?_eq_none_iff`), so it succeeds if the id is `Present` there.
-/

namespace Downline.Arena

@[simp] theorem preorderFrom_nil (a : Arena) (fuel : Nat) : a.preorderFrom fuel [] = [] := by
  cases fuel <;> rfl

/-! ## What hangs below -/

/-- Handles of the children of a node, from left to right; none for a handle that names no node. -/
def childrenOf (a : Arena) (h : Nat) : List Nat := ((a.node? h).map (·.children)).getD []

theorem childrenOf_eq {a : Arena} {h : Nat} {n : ArenaNode} (hn : a.node? h = some n) :
    a.childrenOf h = n.children := by
  rw [childrenOf, hn, Option.map_some, Option.getD_some]

theorem exists_node?_of_mem_childrenOf {a : Arena} {h c : Nat} (hc : c ∈ a.childrenOf h) :
    ∃ n, a.node? h = some n ∧ c ∈ n.children := by
  cases hn : a.node? h with
  | none =>
    rw [childrenOf, hn] at hc
    cases hc
  | some n => exact ⟨n, rfl, childrenOf_eq hn ▸ hc⟩

/-- A node hangs at the given one or somewhere below it. -/
def AtOrBelow (a : Arena) : Nat → Nat → Prop :=
  Relation.ReflTransGen fun p c => c ∈ a.childrenOf p

/-- A node hangs at the root or somewhere below it. -/
def Rooted (a : Arena) (h : Nat) : Prop := ∃ r, a.root = some r ∧ a.AtOrBelow r h

theorem AtOrBelow.mem_of_closed {a : Arena} {handles : List Nat}
    (hclosed : ∀ h ∈ handles, ∀ c ∈ a.childrenOf h, c ∈ handles) {h k : Nat} (hh : h ∈ handles)
    (hk : a.AtOrBelow h k) : k ∈ handles := by
  induction hk with
  | refl => exact hh
  | tail _ hc ih => exact hclosed _ ih _ hc

namespace Sound

variable {a : Arena} (ha : a.Sound)

include ha

theorem child_lt_size {h c : Nat} (hc : c ∈ a.childrenOf h) : c < a.size := by
  obtain ⟨n, hn, hc⟩ := exists_node?_of_mem_childrenOf hc
  obtain ⟨m, hm, -⟩ := ha.linked hn hc
  exact lt_size_of_node? hm

/-- Nodes hang below one node each: the one that their link names. -/
theorem forest : Walk.Forest a.childrenOf where
  nodup := by
    intro h
    cases hn : a.node? h with
    | none => simp [childrenOf, hn]
    | some n =>
      rw [childrenOf_eq hn]
      exact (ha.ascending hn).imp Nat.ne_of_lt
  unique := by
    intro x y c hx hy
    obtain ⟨n, hn, hcn⟩ := exists_node?_of_mem_childrenOf hx
    obtain ⟨n', hn', hcn'⟩ := exists_node?_of_mem_childrenOf hy
    obtain ⟨m, hm, hlink⟩ := ha.linked hn hcn
    obtain ⟨m', hm', hlink'⟩ := ha.linked hn' hcn'
    obtain rfl : m = m' := Option.some.inj (hm.symm.trans hm')
    rcases hlink with hlink | ⟨rfl, hlink⟩ <;> rcases hlink' with hlink' | ⟨rfl, hlink'⟩
    · exact Link.below.inj (hlink.symm.trans hlink')
    · cases hlink.symm.trans hlink'
    · cases hlink.symm.trans hlink'
    · rfl

theorem root_not_child {r : Nat} (hr : a.root = some r) (h : Nat) : r ∉ a.childrenOf h := by
  intro hmem
  obtain ⟨n, hn, hlink⟩ := ha.root_top hr
  obtain ⟨p, hp, hmem⟩ := exists_node?_of_mem_childrenOf hmem
  obtain ⟨m, hm, hm'⟩ := ha.linked hp hmem
  obtain rfl : n = m := Option.some.inj (hn.symm.trans hm)
  rcases hm' with hm' | ⟨-, hm'⟩ <;> cases hlink.symm.trans hm'

theorem root_lt_size {r : Nat} (hr : a.root = some r) : r < a.size := by
  obtain ⟨n, hn, -⟩ := ha.root_top hr
  exact lt_size_of_node? hn

/-! ## The walk -/

/-- From nodes of the arena on, the first walk is a depth-first walk. -/
theorem map_fst_preorderFrom (fuel : Nat) {pending : List Nat} (hlive : ∀ h ∈ pending, h < a.size) :
    (a.preorderFrom fuel pending).map Prod.fst = Walk.visits a.childrenOf fuel pending := by
  induction fuel generalizing pending with
  | zero => rfl
  | succ fuel ih =>
    cases pending with
    | nil => rfl
    | cons h rest =>
      obtain ⟨n, hn⟩ := exists_node? (hlive h List.mem_cons_self)
      simp only [preorderFrom, hn, List.map_cons, Walk.visits, childrenOf_eq hn]
      rw [ih]
      intro c hc
      rcases List.mem_append.mp hc with hc | hc
      · exact ha.child_lt_size (childrenOf_eq hn ▸ hc)
      · exact hlive c (List.mem_cons_of_mem h hc)

theorem root_live : ∀ h ∈ a.root.toList, h < a.size := by
  intro h hh
  exact ha.root_lt_size (Option.mem_toList.mp hh)

theorem fresh_root : Walk.Fresh a.childrenOf [] a.root.toList := by
  refine Walk.fresh_start ?_ ?_
  · cases a.root <;> simp
  · intro r hr h
    exact ha.root_not_child (Option.mem_toList.mp hr) h

theorem leftover_root {fuel : Nat} (hfuel : a.size ≤ fuel) :
    Walk.leftover a.childrenOf fuel a.root.toList = [] := by
  refine ha.fresh_root.leftover_eq_nil ha.forest (List.range a.size) (List.nil_subset _) ?_ ?_ ?_
  · intro h hh
    exact List.mem_range.mpr (ha.root_live h hh)
  · intro h _ c hc
    exact List.mem_range.mpr (ha.child_lt_size hc)
  · simpa using hfuel

theorem handles_preorder :
    a.preorder.map Prod.fst = Walk.visits a.childrenOf a.size a.root.toList :=
  ha.map_fst_preorderFrom a.size ha.root_live

theorem nodup_preorder : (a.preorder.map Prod.fst).Nodup := by
  rw [ha.handles_preorder]
  exact (List.nodup_append.mp (ha.fresh_root.run ha.forest a.size).nodup).1

/-- It visits exactly the nodes at or below the root. -/
theorem mem_preorder_iff {h : Nat} : h ∈ a.preorder.map Prod.fst ↔ a.Rooted h := by
  have hdone := ha.leftover_root (Nat.le_refl a.size)
  rw [ha.handles_preorder]
  constructor
  · intro hh
    refine Walk.induction_on (P := a.Rooted) ?_ ?_ h (List.mem_append_left _ hh)
    · exact fun r hr => ⟨r, Option.mem_toList.mp hr, .refl⟩
    · rintro k ⟨r, hr, hk⟩ c hc
      exact ⟨r, hr, hk.tail hc⟩
  · rintro ⟨r, hr, hbelow⟩
    induction hbelow with
    | refl =>
      have hmet := Walk.pending_subset a.childrenOf a.size a.root.toList
        (Option.mem_toList.mpr hr)
      rwa [hdone, List.append_nil] at hmet
    | tail _ hc ih => exact Walk.next_subset_visits hdone ih hc

end Sound

theorem node?_of_mem_preorderFrom {a : Arena} {fuel : Nat} {pending : List Nat} {h : Nat}
    {n : ArenaNode} (hmem : (h, n) ∈ a.preorderFrom fuel pending) : a.node? h = some n := by
  induction fuel generalizing pending with
  | zero => cases hmem
  | succ fuel ih =>
    cases pending with
    | nil => cases hmem
    | cons k rest =>
      cases hk : a.node? k with
      | none =>
        simp only [preorderFrom, hk] at hmem
        cases hmem
      | some m =>
        simp only [preorderFrom, hk] at hmem
        rcases List.mem_cons.mp hmem with heq | hmem
        · obtain ⟨rfl, rfl⟩ := Prod.mk.inj heq
          exact hk
        · exact ih hmem

/-- So what a walk shows is determined by the handles that it visits. -/
theorem preorderFrom_eq_of_handles {a : Arena} {fuel fuel' : Nat} {pending pending' : List Nat}
    (hsame : (a.preorderFrom fuel pending).map Prod.fst =
      (a.preorderFrom fuel' pending').map Prod.fst) :
    a.preorderFrom fuel pending = a.preorderFrom fuel' pending' := by
  have hshown : ∀ l : List (Nat × ArenaNode), (∀ e ∈ l, a.node? e.1 = some e.2) →
      l.map some = (l.map Prod.fst).map fun h => (a.node? h).map (h, ·) := by
    intro l hl
    rw [List.map_map]
    refine List.map_congr_left fun e he => ?_
    simp only [Function.comp_apply, hl e he, Option.map_some]
  refine (List.map_inj_right fun _ _ => Option.some.inj).mp ?_
  rw [hshown _ fun e he => node?_of_mem_preorderFrom he,
    hshown _ fun e he => node?_of_mem_preorderFrom he, hsame]

/-- More steps than there are nodes visit nothing more. -/
theorem Sound.preorderFrom_of_le {a : Arena} (ha : a.Sound) {fuel : Nat} (hfuel : a.size ≤ fuel) :
    a.preorderFrom fuel a.root.toList = a.preorder := by
  refine preorderFrom_eq_of_handles ?_
  rw [ha.map_fst_preorderFrom fuel ha.root_live, ha.map_fst_preorderFrom a.size ha.root_live]
  exact Walk.visits_of_le (ha.leftover_root (Nat.le_refl a.size)) hfuel

/-! ## Looking up ids -/

theorem find?_eq_some {a : Arena} {id : String} {h : Nat} (hfind : a.find? id = some h) :
    h ∈ a.preorder.map Prod.fst ∧ ∃ n, a.node? h = some n ∧ n.member.id = id := by
  obtain ⟨⟨k, n⟩, hfound, rfl⟩ := Option.map_eq_some_iff.mp hfind
  have hmem := List.mem_of_find?_eq_some hfound
  refine ⟨List.mem_map_of_mem hmem, n, node?_of_mem_preorderFrom hmem, ?_⟩
  simpa using List.find?_some hfound

/-- A look-up fails exactly if no node at or below the root carries the id. -/
theorem find?_eq_none_iff {a : Arena} {id : String} :
    a.find? id = none ↔
      ∀ h ∈ a.preorder.map Prod.fst, ∀ n, a.node? h = some n → n.member.id ≠ id := by
  rw [find?, Option.map_eq_none_iff, List.find?_eq_none]
  constructor
  · intro hnone h hh n hn
    obtain ⟨⟨k, m⟩, hmem, rfl⟩ := List.mem_map.mp hh
    obtain rfl : m = n := Option.some.inj ((node?_of_mem_preorderFrom hmem).symm.trans hn)
    simpa using hnone (k, m) hmem
  · rintro hall ⟨h, n⟩ hmem
    have hne := hall h (List.mem_map_of_mem hmem) n (node?_of_mem_preorderFrom hmem)
    simpa using hne

/-- A node at or below the root carries an id. -/
def Carries (a : Arena) (h : Nat) (id : String) : Prop :=
  a.Rooted h ∧ ∃ n, a.node? h = some n ∧ n.member.id = id

/-- An id is present if a node at or below the root carries it. -/
def Present (a : Arena) (id : String) : Prop := ∃ h, a.Carries h id

namespace Sound

variable {a : Arena} (ha : a.Sound) {id : String}

include ha

theorem carries_of_find? {h : Nat} (hfind : a.find? id = some h) : a.Carries h id := by
  obtain ⟨hmet, hcarries⟩ := find?_eq_some hfind
  exact ⟨ha.mem_preorder_iff.mp hmet, hcarries⟩

theorem find?_eq_none_iff_absent : a.find? id = none ↔ ¬ a.Present id := by
  constructor
  · rintro hnone ⟨h, hrooted, n, hn, hid⟩
    exact find?_eq_none_iff.mp hnone h (ha.mem_preorder_iff.mpr hrooted) n hn hid
  · intro habsent
    rw [Option.eq_none_iff_forall_ne_some]
    exact fun h hfind => habsent ⟨h, ha.carries_of_find? hfind⟩

theorem exists_find?_iff : (∃ h, a.find? id = some h) ↔ a.Present id := by
  rw [← Option.ne_none_iff_exists', Ne, ha.find?_eq_none_iff_absent, not_not]

end Sound

end Downline.Arena
