import Downline.Proofs.Arena.Search
import Mathlib.Data.List.Shortlex

/-!
# Which free leg is the first

From a node the legs lead down: to its first child on the left leg, to its first child on the right
one, and so on along paths of legs. A path comes before another one if it is shorter, or as long and
further left. The search for a free leg answers the first path to a node that has a leg free, and of
that node the left leg before the right one (`FirstFree.freeLeg?_eq`). There always is one
(`Sound.exists_firstFree`), so the search answers exactly what is found without a bound on its steps
(`Sound.freeLeg?_eq_some_iff`).

The search goes row by row. A row holds the nodes to which the paths of one length lead, from left
to right, and as long as all of them have both legs taken, the row is passed by and the next one is
in the queue (`freeLegFrom_legRow`). No node comes up twice in a row, since every node hangs below
one node only. So rows with both legs taken everywhere, which are twice as long each as the one
before, come to an end, and soon enough for the steps that the search is given. This does not need
the start to be below the root, nor the nodes below it to be a tree: a node that is its own child
comes up in many rows.
-/

namespace Downline

/-- Of the legs the left one comes first. -/
def Leg.Before (leg leg' : Leg) : Prop := leg = .left ∧ leg' = .right

theorem Leg.wellFounded_before : WellFounded Leg.Before := by
  have hleft : Acc Leg.Before .left := ⟨_, fun _ h => nomatch h.2⟩
  refine ⟨fun leg => ?_⟩
  cases leg with
  | left => exact hleft
  | right => exact ⟨_, fun _ h => h.1 ▸ hleft⟩

namespace Arena

variable {a : Arena} {start : Nat}

/-! ## Paths of legs -/

/-- The first child on a leg of a node. -/
def firstOn? (a : Arena) (h : Nat) (leg : Leg) : Option Nat :=
  (a.node? h).bind fun n => (a.standing n leg).head?

/-- The node to which a path of legs leads. -/
def along? (a : Arena) (h : Nat) : List Leg → Option Nat
  | [] => some h
  | leg :: path => (a.firstOn? h leg).bind (a.along? · path)

theorem along?_concat (a : Arena) (h : Nat) (path : List Leg) (leg : Leg) :
    a.along? h (path ++ [leg]) = (a.along? h path).bind (a.firstOn? · leg) := by
  induction path generalizing h with
  | nil => cases hc : a.firstOn? h leg <;> simp [along?, hc]
  | cons side path ih => cases hc : a.firstOn? h side <;> simp [along?, hc, ih]

/-- The paths of a length, from left to right. -/
def legPaths : Nat → List (List Leg)
  | 0 => [[]]
  | d + 1 => (legPaths d).map (.left :: ·) ++ (legPaths d).map (.right :: ·)

theorem mem_legPaths {path : List Leg} {d : Nat} : path ∈ legPaths d ↔ path.length = d := by
  induction d generalizing path with
  | zero => rw [legPaths, List.mem_singleton, List.length_eq_zero_iff]
  | succ d ih =>
    cases path with
    | nil => simp [legPaths]
    | cons leg path => cases leg <;> simp [legPaths, ih]

/-- The paths of the next length are one leg longer each. -/
theorem legPaths_succ (d : Nat) :
    legPaths (d + 1) = (legPaths d).flatMap fun path => [path ++ [.left], path ++ [.right]] := by
  induction d with
  | zero => rfl
  | succ d ih =>
    calc legPaths (d + 1 + 1)
      _ = (legPaths (d + 1)).map (.left :: ·) ++ (legPaths (d + 1)).map (.right :: ·) := rfl
      _ = ((legPaths d).map (.left :: ·) ++ (legPaths d).map (.right :: ·)).flatMap
            fun path => [path ++ [.left], path ++ [.right]] := by
        simp only [ih, List.map_flatMap, List.flatMap_append, List.flatMap_map]
        rfl

theorem pairwise_legPaths (d : Nat) : (legPaths d).Pairwise (List.Lex Leg.Before) := by
  induction d with
  | zero => exact List.pairwise_singleton ..
  | succ d ih =>
    have hside (leg : Leg) : ((legPaths d).map (leg :: ·)).Pairwise (List.Lex Leg.Before) :=
      List.pairwise_map.mpr (ih.imp List.Lex.cons)
    refine List.pairwise_append.mpr ⟨hside .left, hside .right, ?_⟩
    intro path hpath path' hpath'
    obtain ⟨path, -, rfl⟩ := List.mem_map.mp hpath
    obtain ⟨path', -, rfl⟩ := List.mem_map.mp hpath'
    exact .rel ⟨rfl, rfl⟩

/-! ## Nodes with both legs taken -/

/-- Both legs of a node are taken. -/
def Full (a : Arena) (h : Nat) : Prop := ∃ n, a.node? h = some n ∧ ∀ leg, a.standing n leg ≠ []

theorem onLeg?_eq_none_iff {n : ArenaNode} {leg : Leg} :
    a.onLeg? n leg = none ↔ a.standing n leg = [] := by
  rw [onLeg?_eq_head?, List.head?_eq_none_iff]

theorem openLeg?_eq_none_iff {n : ArenaNode} :
    a.openLeg? n = none ↔ ∀ leg, a.standing n leg ≠ [] := by
  have hboth : (∀ leg, a.standing n leg ≠ []) ↔
      a.onLeg? n .left ≠ none ∧ a.onLeg? n .right ≠ none := by
    simp only [Ne, onLeg?_eq_none_iff]
    refine ⟨fun h => ⟨h .left, h .right⟩, fun h leg => ?_⟩
    cases leg with
    | left => exact h.1
    | right => exact h.2
  rw [hboth, openLeg?]
  cases a.onLeg? n .left <;> cases a.onLeg? n .right <;> simp

/-- Of two free legs the left one is answered. -/
theorem openLeg?_eq_some_iff {n : ArenaNode} {leg : Leg} :
    a.openLeg? n = some leg ↔
      a.standing n leg = [] ∧ (leg = .right → a.standing n .left ≠ []) := by
  simp only [Ne, ← onLeg?_eq_none_iff, openLeg?]
  cases leg <;> cases a.onLeg? n .left <;> cases a.onLeg? n .right <;> simp

/-- The first children on the legs of a node. -/
def legsOf (a : Arena) (h : Nat) : List Nat := [Leg.left, Leg.right].filterMap (a.firstOn? h)

theorem legsOf_eq {h : Nat} {n : ArenaNode} (hn : a.node? h = some n) :
    a.legsOf h = a.onLegs n := by
  have hfirst (leg : Leg) : a.firstOn? h leg = a.onLeg? n leg := by
    rw [firstOn?, hn, Option.bind_some, onLeg?_eq_head?]
  rw [legsOf, onLegs, List.filterMap_cons, List.filterMap_cons, hfirst, hfirst]
  cases a.onLeg? n .left <;> cases a.onLeg? n .right <;> rfl

theorem mem_childrenOf_of_firstOn? {h c : Nat} {leg : Leg} (hc : a.firstOn? h leg = some c) :
    c ∈ a.childrenOf h ∧ (a.node? c).bind (·.leg) = some leg := by
  obtain ⟨n, hn, hfirst⟩ := Option.bind_eq_some_iff.mp hc
  rw [childrenOf_eq hn]
  exact onLeg?_eq_some ((onLeg?_eq_head? a n leg).trans hfirst)

theorem mem_childrenOf_of_mem_legsOf {h c : Nat} (hc : c ∈ a.legsOf h) : c ∈ a.childrenOf h := by
  obtain ⟨leg, -, hleg⟩ := List.mem_filterMap.mp hc
  exact (mem_childrenOf_of_firstOn? hleg).1

/-- A child stands on one leg only. -/
theorem nodup_legsOf (a : Arena) (h : Nat) : (a.legsOf h).Nodup := by
  refine List.Nodup.filterMap (fun leg leg' c hc hc' => ?_) (by decide)
  have hleg := (mem_childrenOf_of_firstOn? hc).2
  have hleg' := (mem_childrenOf_of_firstOn? hc').2
  exact Option.some.inj (hleg.symm.trans hleg')

theorem Full.length_legsOf {h : Nat} (hfull : a.Full h) : (a.legsOf h).length = 2 := by
  obtain ⟨n, hn, htaken⟩ := hfull
  obtain ⟨left, right, hlegs⟩ := exists_onLegs_eq (openLeg?_eq_none_iff.mpr htaken)
  rw [legsOf_eq hn, hlegs]
  rfl

/-! ## Rows -/

/-- The nodes to which the paths of a length lead, from left to right. -/
def legRow (a : Arena) (start d : Nat) : List Nat := (legPaths d).filterMap (a.along? start)

theorem legRow_zero (a : Arena) (start : Nat) : a.legRow start 0 = [start] := rfl

theorem mem_legRow_of_along? {path : List Leg} {h : Nat} (hpath : a.along? start path = some h) :
    h ∈ a.legRow start path.length :=
  List.mem_filterMap.mpr ⟨path, mem_legPaths.mpr rfl, hpath⟩

/-- A row holds what stands on the legs of the row before. -/
theorem legRow_succ (a : Arena) (start d : Nat) :
    a.legRow start (d + 1) = (a.legRow start d).flatMap a.legsOf := by
  have hlegs (path : List Leg) :
      [path ++ [.left], path ++ [.right]].filterMap (a.along? start) =
        (a.along? start path).toList.flatMap a.legsOf := by
    cases hpath : a.along? start path with
    | none => simp [along?_concat, hpath]
    | some h => simp [along?_concat, hpath, legsOf, List.filterMap_cons]
  rw [legRow, legRow, legPaths_succ, List.filterMap_flatMap, List.filterMap_eq_flatMap_toList,
    List.flatMap_assoc]
  simp only [hlegs]

/-- The search passes by a row of nodes with both legs taken, and then has in its queue what stands
on their legs. -/
theorem freeLegFrom_of_all_full {row : List Nat} (hrow : ∀ h ∈ row, a.Full h) (fuel : Nat)
    (queue : List Nat) :
    a.freeLegFrom (row.length + fuel) (row ++ queue) =
      a.freeLegFrom fuel (queue ++ row.flatMap a.legsOf) := by
  induction row generalizing queue with
  | nil => simp
  | cons h row ih =>
    obtain ⟨⟨n, hn, htaken⟩, hrow⟩ := List.forall_mem_cons.mp hrow
    have hsteps : (h :: row).length + fuel = row.length + fuel + 1 := Nat.add_right_comm ..
    rw [hsteps, List.cons_append, freeLegFrom_of_full hn (openLeg?_eq_none_iff.mpr htaken),
      List.append_assoc, ih hrow, List.flatMap_cons, legsOf_eq hn, List.append_assoc]

/-- **While the rows have both legs taken everywhere, they double**, and the search comes to the
next row with nothing else in its queue. -/
theorem freeLegFrom_legRow {d : Nat} (hfull : ∀ k < d, ∀ h ∈ a.legRow start k, a.Full h) :
    (a.legRow start d).length = 2 ^ d ∧ ∀ fuel,
      a.freeLegFrom (2 ^ d - 1 + fuel) [start] = a.freeLegFrom fuel (a.legRow start d) := by
  induction d with
  | zero => exact ⟨rfl, fun fuel => by rw [Nat.pow_zero, Nat.sub_self, Nat.zero_add, legRow_zero]⟩
  | succ d ih =>
    obtain ⟨hlength, hsearch⟩ := ih fun k hk => hfull k (Nat.lt_succ_of_lt hk)
    have hrow := hfull d (Nat.lt_succ_self d)
    have hdouble : (a.legRow start (d + 1)).length = 2 ^ (d + 1) := by
      have hlegs : (a.legRow start d).map (fun h => (a.legsOf h).length) =
          (a.legRow start d).map fun _ => 2 :=
        List.map_congr_left fun h hh => (hrow h hh).length_legsOf
      rw [legRow_succ, List.length_flatMap, hlegs, List.map_const', List.sum_replicate_nat, hlength,
        Nat.pow_succ]
    refine ⟨hdouble, fun fuel => ?_⟩
    have hpos : 0 < 2 ^ d := Nat.two_pow_pos d
    have hsteps : 2 ^ (d + 1) - 1 + fuel = 2 ^ d - 1 + ((a.legRow start d).length + fuel) := by
      rw [hlength, Nat.pow_succ]
      omega
    have hpass := freeLegFrom_of_all_full hrow fuel []
    rw [List.append_nil, List.nil_append] at hpass
    rw [hsteps, hsearch, hpass, legRow_succ]

namespace Sound

variable (ha : a.Sound)

include ha

/-- Nothing comes up twice in a row: a node hangs below one node only. -/
theorem nodup_legRow (start d : Nat) : (a.legRow start d).Nodup := by
  induction d with
  | zero => exact List.nodup_singleton start
  | succ d ih =>
    rw [legRow_succ]
    refine List.nodup_flatMap.mpr ⟨fun h _ => a.nodup_legsOf h, ?_⟩
    refine ih.imp fun hne c hc hc' => hne ?_
    exact ha.forest.unique (mem_childrenOf_of_mem_legsOf hc) (mem_childrenOf_of_mem_legsOf hc')

theorem lt_size_of_mem_legRow (hstart : start < a.size) {d h : Nat} (hh : h ∈ a.legRow start d) :
    h < a.size := by
  cases d with
  | zero => exact List.mem_singleton.mp hh ▸ hstart
  | succ d =>
    rw [legRow_succ] at hh
    obtain ⟨above, -, hh⟩ := List.mem_flatMap.mp hh
    exact ha.child_lt_size (mem_childrenOf_of_mem_legsOf hh)

theorem length_legRow_le (hstart : start < a.size) (d : Nat) :
    (a.legRow start d).length ≤ a.size := by
  have hsub : a.legRow start d ⊆ List.range a.size := fun h hh =>
    List.mem_range.mpr (ha.lt_size_of_mem_legRow hstart hh)
  simpa using ((ha.nodup_legRow start d).subperm hsub).length_le

/-- Rows cannot double forever. -/
theorem exists_not_full (hstart : start < a.size) :
    ∃ path h, a.along? start path = some h ∧ ¬ a.Full h := by
  by_contra hnone
  have hfull : ∀ k < a.size, ∀ h ∈ a.legRow start k, a.Full h := by
    intro k _ h hh
    obtain ⟨path, -, hpath⟩ := List.mem_filterMap.mp hh
    exact by_contra fun hopen => hnone ⟨path, h, hpath, hopen⟩
  have hlength := (freeLegFrom_legRow hfull).1
  have hle := ha.length_legRow_le hstart a.size
  have hlt : a.size < 2 ^ a.size := Nat.lt_two_pow_self
  omega

end Sound

/-! ## The answer of the search -/

/-- A path leads from the start to the first node with a leg free, and this is its first free
leg. -/
structure FirstFree (a : Arena) (start : Nat) (path : List Leg) (h : Nat) (leg : Leg) : Prop where
  reached : a.along? start path = some h
  free : ∃ n, a.node? h = some n ∧ a.standing n leg = [] ∧
    (leg = .right → a.standing n .left ≠ [])
  /-- Nodes that are nearer, or as near and further left, have both legs taken. -/
  earlier : ∀ path' h', List.Shortlex Leg.Before path' path → a.along? start path' = some h' →
    a.Full h'

theorem Sound.exists_firstFree (ha : a.Sound) (hstart : start < a.size) :
    ∃ path h leg, a.FirstFree start path h leg := by
  obtain ⟨path, ⟨h, hpath, hopen⟩, hmin⟩ :=
    (List.Shortlex.wf Leg.wellFounded_before).has_min
      {path | ∃ h, a.along? start path = some h ∧ ¬ a.Full h} (ha.exists_not_full hstart)
  obtain ⟨n, hn⟩ := exists_node? (ha.lt_size_of_mem_legRow hstart (mem_legRow_of_along? hpath))
  cases hlegs : a.openLeg? n with
  | none => exact absurd ⟨n, hn, openLeg?_eq_none_iff.mp hlegs⟩ hopen
  | some leg =>
    refine ⟨path, h, leg, hpath, ⟨n, hn, openLeg?_eq_some_iff.mp hlegs⟩, ?_⟩
    intro path' h' hbefore hpath'
    exact by_contra fun hopen' => hmin path' ⟨h', hpath', hopen'⟩ hbefore

namespace FirstFree

variable {path : List Leg} {h : Nat} {leg : Leg} (hfirst : a.FirstFree start path h leg)

include hfirst

/-- The rows above the first free leg are full. -/
theorem full_of_lt {d : Nat} (hd : d < path.length) : ∀ h' ∈ a.legRow start d, a.Full h' := by
  intro h' hh'
  obtain ⟨path', hmem, hpath'⟩ := List.mem_filterMap.mp hh'
  exact hfirst.earlier path' h' (.of_length_lt (mem_legPaths.mp hmem ▸ hd)) hpath'

/-- And so is what stands left of it in its own row. -/
theorem exists_legRow_eq :
    ∃ before after, a.legRow start path.length = before ++ h :: after ∧
      ∀ h' ∈ before, a.Full h' := by
  obtain ⟨before, after, hpaths⟩ := List.append_of_mem (mem_legPaths.mpr rfl)
  refine ⟨before.filterMap (a.along? start), after.filterMap (a.along? start), ?_, ?_⟩
  · rw [legRow, hpaths, List.filterMap_append, List.filterMap_cons_some hfirst.reached]
  · intro h' hh'
    obtain ⟨path', hmem, hpath'⟩ := List.mem_filterMap.mp hh'
    have hsorted := hpaths ▸ pairwise_legPaths path.length
    have hlex := (List.pairwise_append.mp hsorted).2.2 path' hmem path List.mem_cons_self
    have hlength : path'.length = path.length :=
      mem_legPaths.mp (hpaths ▸ List.mem_append_left _ hmem)
    exact hfirst.earlier path' h' (.of_lex hlength hlex) hpath'

/-- The search comes to the first free leg, and the steps that it is given are enough for that. -/
theorem freeLeg?_eq (ha : a.Sound) (hstart : start < a.size) :
    a.freeLeg? start = some (h, leg) := by
  obtain ⟨n, hn, hfree⟩ := hfirst.free
  obtain ⟨hlength, hsearch⟩ := freeLegFrom_legRow fun d hd => hfirst.full_of_lt hd
  obtain ⟨before, after, hrow, hbefore⟩ := hfirst.exists_legRow_eq
  obtain ⟨fuel, hfuel⟩ : ∃ fuel,
      4 * a.size = 2 ^ path.length - 1 + (before.length + (fuel + 1)) := by
    have hle := ha.length_legRow_le hstart path.length
    have hlt := congrArg List.length hrow
    rw [List.length_append, List.length_cons] at hlt
    exact ⟨4 * a.size - 2 ^ path.length - before.length, by omega⟩
  rw [freeLeg?, hfuel, hsearch, hrow, freeLegFrom_of_all_full hbefore, List.cons_append,
    freeLegFrom_of_open hn (openLeg?_eq_some_iff.mpr hfree)]

end FirstFree

/-- **From any node of an arena the search answers**, and it answers what there is to find. -/
theorem Sound.exists_freeLeg? (ha : a.Sound) (hstart : start < a.size) :
    ∃ seat, a.freeLeg? start = some seat ∧ a.Finds [start] seat := by
  obtain ⟨path, h, leg, hfirst⟩ := ha.exists_firstFree hstart
  have hfree := hfirst.freeLeg?_eq ha hstart
  exact ⟨(h, leg), hfree, finds_of_freeLegFrom hfree⟩

theorem Sound.freeLeg?_eq_some_iff (ha : a.Sound) (hstart : start < a.size) {seat : Nat × Leg} :
    a.freeLeg? start = some seat ↔ a.Finds [start] seat := by
  obtain ⟨seat', hseat, hfinds⟩ := ha.exists_freeLeg? hstart
  constructor
  · exact finds_of_freeLegFrom
  · intro h
    rw [hseat, hfinds.unique h]

end Arena

end Downline
