import Downline.Arena.Basic

/-!
# Links and children

An arena says twice what hangs where: a node has a link to what it hangs on, and the node above
lists it among its children. `Sound` says that the two agree, that children are listed in order of
insertion, and that depths count links. It holds of the empty arena and is kept by every insertion
(`Sound.insert`), whatever is named as parent.

An insertion is said by two equations, one for the node it adds (`node?_insert_new`) and one for
the nodes that were there (`node?_insert_old`); nothing else opens it.
-/

namespace Downline.Arena

/-! ## Handles -/

theorem node?_isSome_iff (a : Arena) (h : Nat) : (a.node? h).isSome ↔ h < a.size := by
  simp [node?, size]

theorem lt_size_of_node? {a : Arena} {h : Nat} {n : ArenaNode} (hn : a.node? h = some n) :
    h < a.size :=
  (a.node?_isSome_iff h).mp (Option.isSome_of_eq_some hn)

theorem exists_node? {a : Arena} {h : Nat} (hlt : h < a.size) : ∃ n, a.node? h = some n :=
  Option.isSome_iff_exists.mp ((a.node?_isSome_iff h).mpr hlt)

theorem node?_size (a : Arena) : a.node? a.size = none :=
  Array.getElem?_size

/-! ## What an insertion does -/

section Insert

variable (a : Arena) (member : Member) (parent : Option Nat) (leg : Option Leg)

/-- The node that an insertion adds. -/
def newcomer : ArenaNode :=
  match parent with
  | none => ⟨member, .top, [], leg, 0⟩
  | some p =>
    match a.node? p with
    | none => ⟨member, .adrift p, if p = a.size then [a.size] else [], leg, 0⟩
    | some above => ⟨member, .below p, [], leg, above.depth + 1⟩

/-- A node of the arena after an insertion: the parent lists one more child. -/
def adopting (h : Nat) (n : ArenaNode) : ArenaNode :=
  if parent = some h then { n with children := n.children ++ [a.size] } else n

theorem adopting_self (h : Nat) :
    a.adopting (some h) h = fun n => { n with children := n.children ++ [a.size] } := by
  funext n
  exact if_pos rfl

theorem adopting_of_ne (a : Arena) {parent : Option Nat} {h : Nat} (hne : parent ≠ some h) :
    a.adopting parent h = id := by
  funext n
  exact if_neg hne

@[simp] theorem member_adopting (h : Nat) (n : ArenaNode) :
    (a.adopting parent h n).member = n.member := by
  unfold adopting
  split <;> rfl

@[simp] theorem link_adopting (h : Nat) (n : ArenaNode) :
    (a.adopting parent h n).link = n.link := by
  unfold adopting
  split <;> rfl

@[simp] theorem leg_adopting (h : Nat) (n : ArenaNode) : (a.adopting parent h n).leg = n.leg := by
  unfold adopting
  split <;> rfl

@[simp] theorem depth_adopting (h : Nat) (n : ArenaNode) :
    (a.adopting parent h n).depth = n.depth := by
  unfold adopting
  split <;> rfl

theorem children_adopting (h : Nat) (n : ArenaNode) :
    (a.adopting parent h n).children =
      n.children ++ if parent = some h then [a.size] else [] := by
  unfold adopting
  split <;> simp

theorem mem_children_adopting {h c : Nat} {n : ArenaNode} :
    c ∈ (a.adopting parent h n).children ↔ c ∈ n.children ∨ parent = some h ∧ c = a.size := by
  rw [children_adopting]
  split <;> simp [*]

variable {a} in
theorem newcomer_below {p : Nat} {above : ArenaNode} (hp : a.node? p = some above) :
    a.newcomer member (some p) leg = ⟨member, .below p, [], leg, above.depth + 1⟩ := by
  simp only [newcomer, hp]

@[simp] theorem member_newcomer : (a.newcomer member parent leg).member = member := by
  unfold newcomer
  split
  · rfl
  · split <;> rfl

@[simp] theorem leg_newcomer : (a.newcomer member parent leg).leg = leg := by
  unfold newcomer
  split
  · rfl
  · split <;> rfl

theorem link_newcomer_eq_below {p : Nat} :
    (a.newcomer member parent leg).link = .below p ↔ parent = some p ∧ (a.node? p).isSome := by
  unfold newcomer
  split
  next => simp
  next q =>
    split
    next hq => simp; rintro rfl; exact hq
    next above hq => simp; rintro rfl; exact Option.isSome_of_eq_some hq

/-- A new node that names its own handle as its parent is adrift and its own child. -/
theorem newcomer_self :
    a.newcomer member (some a.size) leg = ⟨member, .adrift a.size, [a.size], leg, 0⟩ := by
  simp only [newcomer, node?_size, if_true]

theorem children_newcomer (hself : parent ≠ some a.size) :
    (a.newcomer member parent leg).children = [] := by
  unfold newcomer
  split
  · rfl
  next p =>
    split
    · exact if_neg fun hp => hself (congrArg some hp)
    · rfl

theorem depth_newcomer (htop : ∀ p, (a.newcomer member parent leg).link ≠ .below p) :
    (a.newcomer member parent leg).depth = 0 := by
  unfold newcomer at htop ⊢
  split
  · rfl
  next p =>
    split
    · rfl
    next above hp => simp only [hp] at htop; exact absurd rfl (htop p)

/-- The table after an insertion: the parent, if it is there, lists one more child, and the new
node comes last. -/
theorem nodes_insert :
    (a.insert member parent leg).1.nodes =
      (a.nodes.mapIdx (a.adopting parent)).push (a.newcomer member parent leg) := by
  cases parent with
  | none =>
    have hsame : a.nodes.mapIdx (a.adopting none) = a.nodes := by
      refine Array.ext_getElem? fun h => ?_
      rw [Array.getElem?_mapIdx, adopting_of_ne a (show none ≠ some h from nofun), Option.map_id,
        id]
    rw [hsame]
    rfl
  | some p =>
    have hmodify : a.nodes.mapIdx (a.adopting (some p)) =
        a.nodes.modify p fun n => { n with children := n.children ++ [a.size] } := by
      refine Array.ext_getElem? fun h => ?_
      rw [Array.getElem?_mapIdx, Array.getElem?_modify]
      by_cases hself : p = h
      · rw [if_pos hself, hself, adopting_self]
      · rw [if_neg hself, adopting_of_ne a (hself ∘ Option.some.inj), Option.map_id, id]
    rw [hmodify]
    cases hp : a.node? p with
    | none =>
      have hsame : a.nodes.modify p (fun n => { n with children := n.children ++ [a.size] }) =
          a.nodes := by
        refine Array.ext_getElem? fun h => ?_
        rw [Array.getElem?_modify]
        split
        next hself => rw [← hself, show a.nodes[p]? = none from hp, Option.map_none]
        next => rfl
      simp only [insert, newcomer, hp, hsame]
    | some above => simp only [insert, newcomer, hp]

@[simp] theorem insert_handle : (a.insert member parent leg).2 = a.size := by
  unfold insert
  split
  · rfl
  · split <;> rfl

theorem root_insert :
    (a.insert member parent leg).1.root = if parent = none then some a.size else a.root := by
  unfold insert
  split
  · rfl
  · split <;> simp

@[simp] theorem size_insert : (a.insert member parent leg).1.size = a.size + 1 := by
  rw [size, nodes_insert, Array.size_push, Array.size_mapIdx, size]

theorem node?_insert_new :
    (a.insert member parent leg).1.node? a.size = some (a.newcomer member parent leg) := by
  rw [node?, nodes_insert, Array.getElem?_push, Array.size_mapIdx, size, if_pos rfl]

/-- The nodes that were there. Only the parent's list of children changes. -/
theorem node?_insert_old {h : Nat} (hlt : h < a.size) :
    (a.insert member parent leg).1.node? h = (a.node? h).map (a.adopting parent h) := by
  have hne : h ≠ (a.nodes.mapIdx (a.adopting parent)).size := by
    rw [Array.size_mapIdx]
    exact Nat.ne_of_lt hlt
  rw [node?, nodes_insert, Array.getElem?_push, if_neg hne, Array.getElem?_mapIdx, node?]

end Insert

theorem node?_insert_cases {a : Arena} {member : Member} {parent : Option Nat} {leg : Option Leg}
    {h : Nat} {n : ArenaNode} (hn : (a.insert member parent leg).1.node? h = some n) :
    (h = a.size ∧ n = a.newcomer member parent leg) ∨
      ∃ old, a.node? h = some old ∧ n = a.adopting parent h old := by
  have hlt := lt_size_of_node? hn
  rw [size_insert] at hlt
  rcases Nat.lt_succ_iff_lt_or_eq.mp hlt with hlt | rfl
  · rw [node?_insert_old _ _ _ _ hlt] at hn
    obtain ⟨old, hold, rfl⟩ := Option.map_eq_some_iff.mp hn
    exact .inr ⟨old, hold, rfl⟩
  · rw [node?_insert_new] at hn
    exact .inl ⟨rfl, (Option.some.inj hn).symm⟩

theorem node?_insert {a : Arena} (member : Member) (parent : Option Nat) (leg : Option Leg)
    {h : Nat} {n : ArenaNode} (hn : a.node? h = some n) :
    (a.insert member parent leg).1.node? h = some (a.adopting parent h n) := by
  rw [node?_insert_old _ _ _ _ (lt_size_of_node? hn), hn, Option.map_some]

/-! ## Links, children and depths agree -/

/-- What links say, lists of children say too. -/
structure Sound (a : Arena) : Prop where
  /-- The root hangs on nothing. -/
  root_top : ∀ {r}, a.root = some r → ∃ n, a.node? r = some n ∧ n.link = .top
  /-- A node below another came later, is listed there and is one deeper. -/
  listed : ∀ {h n p}, a.node? h = some n → n.link = .below p →
    p < h ∧ ∃ m, a.node? p = some m ∧ h ∈ m.children ∧ n.depth = m.depth + 1
  /-- A listed node hangs where it is listed; a node that named itself lists itself. -/
  linked : ∀ {h n c}, a.node? h = some n → c ∈ n.children →
    ∃ m, a.node? c = some m ∧ (m.link = .below h ∨ c = h ∧ m.link = .adrift h)
  /-- Children are listed in order of insertion. -/
  ascending : ∀ {h n}, a.node? h = some n → n.children.Pairwise (· < ·)
  /-- A node that hangs below no other has depth zero. -/
  depth_zero : ∀ {h n}, a.node? h = some n → (∀ p, n.link ≠ .below p) → n.depth = 0

theorem sound_empty : Sound empty where
  root_top := nofun
  listed := nofun
  linked := nofun
  ascending := nofun
  depth_zero := nofun

/-- **Every insertion keeps links and children in step**, whatever is named as parent. -/
theorem Sound.insert {a : Arena} (ha : a.Sound) (member : Member) (parent : Option Nat)
    (leg : Option Leg) : (a.insert member parent leg).1.Sound where
  root_top := by
    intro r hr
    rw [root_insert] at hr
    split at hr
    next hnone =>
      obtain rfl : a.size = r := Option.some.inj hr
      exact ⟨_, node?_insert_new .., by rw [hnone]; rfl⟩
    next =>
      obtain ⟨n, hn, hlink⟩ := ha.root_top hr
      exact ⟨_, node?_insert member parent leg hn, (link_adopting ..).trans hlink⟩
  listed := by
    intro h n p hn hlink
    rcases node?_insert_cases hn with ⟨rfl, rfl⟩ | ⟨old, hold, rfl⟩
    · obtain ⟨rfl, hp⟩ := (link_newcomer_eq_below ..).mp hlink
      obtain ⟨above, habove⟩ := Option.isSome_iff_exists.mp hp
      refine ⟨lt_size_of_node? habove, _, node?_insert member (some p) leg habove, ?_, ?_⟩
      · exact (mem_children_adopting ..).mpr (.inr ⟨rfl, rfl⟩)
      · rw [newcomer_below member leg habove, depth_adopting]
    · rw [link_adopting] at hlink
      obtain ⟨hlt, m, hm, hmem, hdepth⟩ := ha.listed hold hlink
      refine ⟨hlt, _, node?_insert member parent leg hm, ?_, ?_⟩
      · exact (mem_children_adopting ..).mpr (.inl hmem)
      · rw [depth_adopting, depth_adopting, hdepth]
  linked := by
    intro h n c hn hc
    rcases node?_insert_cases hn with ⟨rfl, rfl⟩ | ⟨old, hold, rfl⟩
    · by_cases hself : parent = some a.size
      · subst hself
        rw [newcomer_self] at hn hc
        obtain rfl := List.mem_singleton.mp hc
        exact ⟨_, hn, .inr ⟨rfl, rfl⟩⟩
      · rw [children_newcomer a member parent leg hself] at hc
        cases hc
    · rcases (mem_children_adopting ..).mp hc with hc | ⟨rfl, rfl⟩
      · obtain ⟨m, hm, hlink⟩ := ha.linked hold hc
        exact ⟨_, node?_insert member parent leg hm, by rwa [link_adopting]⟩
      · refine ⟨_, node?_insert_new .., .inl ?_⟩
        rw [newcomer_below member leg hold]
  ascending := by
    intro h n hn
    rcases node?_insert_cases hn with ⟨rfl, rfl⟩ | ⟨old, hold, rfl⟩
    · by_cases hself : parent = some a.size
      · rw [hself, newcomer_self]
        exact List.pairwise_singleton ..
      · rw [children_newcomer a member parent leg hself]
        exact .nil
    · unfold adopting
      split
      · refine List.pairwise_append.mpr ⟨ha.ascending hold, List.pairwise_singleton .., ?_⟩
        intro c hc d hd
        obtain ⟨m, hm, -⟩ := ha.linked hold hc
        exact List.mem_singleton.mp hd ▸ lt_size_of_node? hm
      · exact ha.ascending hold
  depth_zero := by
    intro h n hn hlink
    rcases node?_insert_cases hn with ⟨rfl, rfl⟩ | ⟨old, hold, rfl⟩
    · exact depth_newcomer a member parent leg hlink
    · rw [depth_adopting]
      exact ha.depth_zero hold fun p hp => hlink p ((link_adopting ..).trans hp)

end Downline.Arena
