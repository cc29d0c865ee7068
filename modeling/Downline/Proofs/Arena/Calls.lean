import Downline.Proofs.Arena.Runs
import Downline.Proofs.Record.Defect

/-!
# Arenas in any use

An arena that was not built from records may hold nodes that hang nowhere, and several that were
inserted without a parent. What its links say is right all the same: it is `Consistent` after any
calls on the empty arena that insert nodes or place members (`consistent_after`), provided that a
handle named as parent is one that the arena has answered by then or one that it never answers. A
node that names the handle it is about to get would be its own child.

Calls may also start from an arena that was built from records. Whatever arena is `Reached` so, with
such nodes or without, it is sound.
-/

namespace Downline.Arena

/-! ## Calls -/

inductive Call where
  | insert (member : Member) (parent : Option Nat) (leg : Option Leg)
  | place (attempt : Attempt)
  deriving DecidableEq, Repr

def Call.apply (a : Arena) : Call → Arena
  | insert member parent leg => (a.insert member parent leg).1
  | place t => (a.place t.sponsorId t.member t.shape).2

/-- The arena after calls on the empty arena, one after the other. -/
def after (calls : List Call) : Arena := calls.foldl Call.apply .empty

/-- An insertion without a parent. -/
def Call.IsTop (c : Call) : Prop := ∃ member leg, c = .insert member none leg

@[simp] theorem after_concat (calls : List Call) (c : Call) :
    after (calls ++ [c]) = c.apply (after calls) := by
  simp [after]

/-- A call inserts a node or leaves the arena as it was, and a member that is placed goes below a
node of the arena. -/
theorem Call.apply_cases (a : Arena) (c : Call) :
    (¬ c.IsTop ∧ c.apply a = a) ∨
      ∃ member parent leg, c.apply a = (a.insert member parent leg).1 ∧
        (c = .insert member parent leg ∨ ¬ c.IsTop ∧ ∃ p < a.size, parent = some p) := by
  cases c with
  | insert member parent leg => exact .inr ⟨member, parent, leg, rfl, .inl rfl⟩
  | place t =>
    have htop : ¬ (Call.place t).IsTop := by
      rintro ⟨_, _, h⟩
      cases h
    rcases a.place_cases t.sponsorId t.member t.shape with ⟨_, h⟩ | ⟨_, p, above, leg, -, hp, h⟩
    · exact .inl ⟨htop, by rw [apply, h]⟩
    · refine .inr ⟨t.member, some p, leg, by rw [apply, h], .inr ⟨htop, p, ?_, rfl⟩⟩
      exact lt_size_of_node? hp

/-- What every insertion keeps holds after all calls. -/
theorem after_induction {P : Arena → Prop} (empty : P .empty)
    (insert : ∀ a member parent leg, P a → P (a.insert member parent leg).1) (calls : List Call) :
    P (after calls) := by
  induction calls using List.reverseRecOn with
  | nil => exact empty
  | append_singleton calls c ih =>
    rw [after_concat]
    rcases c.apply_cases (after calls) with ⟨-, h⟩ | ⟨member, parent, leg, h, -⟩
    · rwa [h]
    · rw [h]
      exact insert _ member parent leg ih

theorem sound_after (calls : List Call) : (after calls).Sound :=
  after_induction sound_empty (fun _ member parent leg h => h.insert member parent leg) calls

/-- An arena that calls lead to, from nothing or from records. -/
inductive Reached : Arena → Prop where
  | empty : Reached .empty
  | built {b : Builder} {rs : List Record} {a : Arena} : (b.build rs).1 = .ok a → Reached a
  | called {a : Arena} : Reached a → ∀ c : Call, Reached (c.apply a)

theorem reached_after (calls : List Call) : (after calls).Reached := by
  induction calls using List.reverseRecOn with
  | nil => exact .empty
  | append_singleton calls c ih =>
    rw [after_concat]
    exact .called ih c

theorem Reached.sound {a : Arena} (h : a.Reached) : a.Sound := by
  induction h with
  | empty => exact sound_empty
  | built hbuild => exact (whole_of_build _ hbuild).1.toSound
  | @called a _ c ih =>
    rcases c.apply_cases a with ⟨-, hc⟩ | ⟨member, parent, leg, hc, -⟩
    · rwa [hc]
    · rw [hc]
      exact ih.insert member parent leg

/-! ## Handles named as parents -/

section Link

variable (a : Arena) (member : Member) (parent : Option Nat) (leg : Option Leg)

/-- A node remembers what was named as its parent. -/
@[simp] theorem named?_newcomer : (a.newcomer member parent leg).link.named? = parent := by
  unfold newcomer
  split
  · rfl
  · split <;> rfl

theorem size_le_of_adrift {p : Nat} (h : (a.newcomer member parent leg).link = .adrift p) :
    parent = some p ∧ a.size ≤ p := by
  obtain rfl : parent = some p := by
    rw [← named?_newcomer a member parent leg, h, Link.named?]
  refine ⟨rfl, Nat.le_of_not_lt fun hlt => ?_⟩
  obtain ⟨above, habove⟩ := exists_node? hlt
  rw [newcomer_below member leg habove] at h
  cases h

end Link

/-- A call that names as parent a handle that is answered later, as one of the first `count`. -/
def NamesAhead (count : Nat) (before : List Call) : Call → Prop
  | .insert _ (some p) _ => (after before).size ≤ p ∧ p < count
  | _ => False

instance (count : Nat) (before : List Call) : (c : Call) → Decidable (NamesAhead count before c)
  | .insert _ (some _) _ => inferInstanceAs (Decidable (_ ∧ _))
  | .insert _ none _ => inferInstanceAs (Decidable False)
  | .place _ => inferInstanceAs (Decidable False)

/-- If no call does so, a node that hangs nowhere named none of the first handles. -/
theorem le_of_adrift {count : Nat} {calls : List Call} (hclean : Clean (NamesAhead count) calls)
    {h p : Nat} {n : ArenaNode} (hn : (after calls).node? h = some n)
    (hlink : n.link = .adrift p) : count ≤ p := by
  induction calls using List.reverseRecOn generalizing h n with
  | nil => cases hn
  | append_singleton calls c ih =>
    obtain ⟨hbefore, hahead⟩ := clean_concat_iff.mp hclean
    rw [after_concat] at hn
    rcases c.apply_cases (after calls) with ⟨-, hc⟩ | ⟨member, parent, leg, hc, hparent⟩
    · rw [hc] at hn
      exact ih hbefore hn hlink
    · rw [hc] at hn
      rcases node?_insert_cases hn with ⟨-, rfl⟩ | ⟨old, hold, rfl⟩
      · obtain ⟨rfl, hle⟩ := size_le_of_adrift _ _ _ _ hlink
        rcases hparent with rfl | ⟨-, q, hq, heq⟩
        · exact Nat.le_of_not_lt fun hlt => hahead ⟨hle, hlt⟩
        · cases heq
          exact absurd hq (Nat.not_lt.mpr hle)
      · rw [link_adopting] at hlink
        exact ih hbefore hold hlink

/-! ## The root -/

/-- A node that was inserted without a parent. -/
def Parentless (a : Arena) (h : Nat) : Prop := ∃ n, a.node? h = some n ∧ n.link.named? = none

theorem parentless_insert_iff {a : Arena} {member : Member} {parent : Option Nat}
    {leg : Option Leg} {h : Nat} :
    (a.insert member parent leg).1.Parentless h ↔
      a.Parentless h ∨ parent = none ∧ h = a.size := by
  constructor
  · rintro ⟨n, hn, hnone⟩
    rcases node?_insert_cases hn with ⟨rfl, rfl⟩ | ⟨old, hold, rfl⟩
    · exact .inr ⟨by rwa [named?_newcomer] at hnone, rfl⟩
    · exact .inl ⟨old, hold, by rwa [link_adopting] at hnone⟩
  · rintro (⟨n, hn, hnone⟩ | ⟨rfl, rfl⟩)
    · exact ⟨_, node?_insert member parent leg hn, by rwa [link_adopting]⟩
    · exact ⟨_, node?_insert_new .., named?_newcomer ..⟩

theorem Parentless.lt_size {a : Arena} {h : Nat} (hp : a.Parentless h) : h < a.size := by
  obtain ⟨n, hn, -⟩ := hp
  exact lt_size_of_node? hn

/-- The root is the latest of the nodes that were inserted without a parent. -/
def LatestRoot (a : Arena) : Prop :=
  ∀ r, a.root = some r ↔ a.Parentless r ∧ ∀ h, a.Parentless h → h ≤ r

theorem latestRoot_empty : LatestRoot empty := by
  intro r
  constructor
  · intro h
    cases h
  · rintro ⟨⟨n, hn, -⟩, -⟩
    cases hn

theorem LatestRoot.insert {a : Arena} (ha : a.LatestRoot) (member : Member) (parent : Option Nat)
    (leg : Option Leg) : (a.insert member parent leg).1.LatestRoot := by
  intro r
  simp only [root_insert, parentless_insert_iff]
  cases parent with
  | some p => simpa using ha r
  | none =>
    -- the new node is the latest of all
    simp only [if_true, true_and, Option.some_inj]
    constructor
    · rintro rfl
      refine ⟨.inr rfl, fun h hh => ?_⟩
      rcases hh with hh | rfl
      · exact Nat.le_of_lt hh.lt_size
      · exact Nat.le_refl _
    · rintro ⟨hr, hlatest⟩
      have hle : a.size ≤ r := hlatest a.size (.inr rfl)
      rcases hr with hr | rfl
      · have := hr.lt_size
        omega
      · rfl

theorem latestRoot_after (calls : List Call) : (after calls).LatestRoot :=
  after_induction latestRoot_empty (fun _ member parent leg h => h.insert member parent leg) calls

/-! ## Consistent links -/

/-- What links, lists of children, depths and the root say of each other. A node's parent is the
node whose handle was named when it was inserted. -/
structure Consistent (a : Arena) : Prop where
  /-- A listed child is a node of the arena and names the node that lists it. -/
  child : ∀ {h n c}, a.node? h = some n → c ∈ n.children →
    ∃ m, a.node? c = some m ∧ m.link.named? = some h
  /-- A node whose parent is in the arena is listed there once. -/
  once : ∀ {h n p m}, a.node? h = some n → n.link.named? = some p → a.node? p = some m →
    m.children.count h = 1
  /-- Children are listed in order of insertion. -/
  ascending : ∀ {h n}, a.node? h = some n → n.children.Pairwise (· < ·)
  /-- Children were inserted after the node that lists them. -/
  later : ∀ {h n c}, a.node? h = some n → c ∈ n.children → h < c
  /-- So no node is below itself. -/
  acyclic : ∀ h, ¬ Relation.TransGen (fun p c => c ∈ a.childrenOf p) h h
  /-- And no node is listed twice. -/
  unshared : ∀ {h k c}, c ∈ a.childrenOf h → c ∈ a.childrenOf k → h = k
  depth : ∀ {h n p m}, a.node? h = some n → n.link.named? = some p → a.node? p = some m →
    n.depth = m.depth + 1
  depth_zero : ∀ {h n}, a.node? h = some n →
    (∀ p, n.link.named? = some p → a.node? p = none) → n.depth = 0
  root : a.LatestRoot

/-- What holds of an arena in which no node that hangs nowhere named a node of the arena. -/
theorem Sound.consistent {a : Arena} (ha : a.Sound) (hroot : a.LatestRoot)
    (hadrift : ∀ {h n p}, a.node? h = some n → n.link = .adrift p → a.size ≤ p) :
    a.Consistent := by
  have hbelow : ∀ {h n p m}, a.node? h = some n → n.link.named? = some p → a.node? p = some m →
      n.link = .below p := by
    intro h n p m hn hnamed hm
    cases hlink : n.link with
    | top => simp [hlink, Link.named?] at hnamed
    | below q =>
      rw [hlink] at hnamed
      cases hnamed
      rfl
    | adrift q =>
      rw [hlink] at hnamed
      cases hnamed
      exact absurd (lt_size_of_node? hm) (Nat.not_lt.mpr (hadrift hn hlink))
  have hchild : ∀ {h n c}, a.node? h = some n → c ∈ n.children →
      ∃ m, a.node? c = some m ∧ m.link = .below h := by
    intro h n c hn hc
    obtain ⟨m, hm, hlink | ⟨rfl, hlink⟩⟩ := ha.linked hn hc
    · exact ⟨m, hm, hlink⟩
    · exact absurd (lt_size_of_node? hm) (Nat.not_lt.mpr (hadrift hm hlink))
  have hlater : ∀ {h n c}, a.node? h = some n → c ∈ n.children → h < c := by
    intro h n c hn hc
    obtain ⟨m, hm, hlink⟩ := hchild hn hc
    exact (ha.listed hm hlink).1
  refine ⟨?child, ?once, ha.ascending, hlater, ?acyclic, ha.forest.unique, ?depth, ?depth_zero,
    hroot⟩
  case child =>
    intro h n c hn hc
    obtain ⟨m, hm, hlink⟩ := hchild hn hc
    exact ⟨m, hm, by rw [hlink, Link.named?]⟩
  case once =>
    intro h n p m hn hnamed hm
    obtain ⟨-, m', hm', hmem, -⟩ := ha.listed hn (hbelow hn hnamed hm)
    obtain rfl : m = m' := Option.some.inj (hm.symm.trans hm')
    exact List.count_eq_one_of_mem ((ha.ascending hm).imp Nat.ne_of_lt) hmem
  case acyclic =>
    intro h hcycle
    have hlt : ∀ {k}, Relation.TransGen (fun p c => c ∈ a.childrenOf p) h k → h < k := by
      intro k hk
      induction hk with
      | single hc =>
        obtain ⟨n, hn, hc⟩ := exists_node?_of_mem_childrenOf hc
        exact hlater hn hc
      | tail _ hc ih =>
        obtain ⟨n, hn, hc⟩ := exists_node?_of_mem_childrenOf hc
        exact Nat.lt_trans ih (hlater hn hc)
    exact Nat.lt_irrefl h (hlt hcycle)
  case depth =>
    intro h n p m hn hnamed hm
    obtain ⟨-, m', hm', -, hdepth⟩ := ha.listed hn (hbelow hn hnamed hm)
    obtain rfl : m = m' := Option.some.inj (hm.symm.trans hm')
    exact hdepth
  case depth_zero =>
    intro h n hn hnowhere
    refine ha.depth_zero hn fun p hlink => ?_
    obtain ⟨-, m, hm, -⟩ := ha.listed hn hlink
    cases hm.symm.trans (hnowhere p (by rw [hlink, Link.named?]))

/-! ## The root, by calls -/

theorem root_apply {a : Arena} {c : Call} (hc : ¬ c.IsTop) : (c.apply a).root = a.root := by
  rcases c.apply_cases a with ⟨-, h⟩ | ⟨member, parent, leg, h, hparent⟩
  · rw [h]
  · rw [h, root_insert, if_neg]
    rintro rfl
    rcases hparent with rfl | ⟨-, p, -, heq⟩
    · exact hc ⟨member, leg, rfl⟩
    · cases heq

theorem root_after_append (calls : List Call) {later : List Call}
    (hlater : ∀ c ∈ later, ¬ c.IsTop) :
    (after (calls ++ later)).root = (after calls).root := by
  induction later using List.reverseRecOn with
  | nil => rw [List.append_nil]
  | append_singleton later c ih =>
    rw [← List.append_assoc, after_concat, root_apply (hlater c List.mem_concat_self),
      ih fun d hd => hlater d (List.mem_append_left [c] hd)]

/-- **Links are consistent after any calls**, whatever was inserted without a parent or below a
handle that names no node, if no call named a handle before it was answered. The root is what the
latest insertion without a parent answered. -/
theorem consistent_after {calls : List Call}
    (hclean : Clean (NamesAhead (after calls).size) calls) :
    (after calls).Consistent ∧
      ((∀ c ∈ calls, ¬ c.IsTop) → (after calls).root = none) ∧
      ∀ before member leg later, calls = before ++ .insert member none leg :: later →
        (∀ c ∈ later, ¬ c.IsTop) → (after calls).root = some (after before).size := by
  refine ⟨(sound_after calls).consistent (latestRoot_after calls) (le_of_adrift hclean), ?_, ?_⟩
  · intro hnone
    exact root_after_append [] hnone
  · rintro before member leg later rfl hlater
    rw [List.append_cons, root_after_append _ hlater, after_concat, Call.apply, root_insert,
      if_pos rfl]

/-- A top with two members below, one of them by placement and one further down by spillover; a
node that hangs nowhere; a second top; and a member placed below that. -/
def tangled : List Call :=
  let bare (id : String) : Member := ⟨id, "", "", 0, 0, .active⟩
  [.insert (bare "a") none none, .insert (bare "b") (some 0) (some .right),
    .place ⟨"a", bare "c", .binary⟩, .insert (bare "d") (some 9) none,
    .place ⟨"a", bare "e", .binary⟩, .place ⟨"f", bare "e", .unilevel⟩,
    .insert (bare "f") none none, .place ⟨"f", bare "g", .unilevel⟩]

theorem consistent_after_tangled :
    Clean (NamesAhead (after tangled).size) tangled ∧ (after tangled).size = 7 ∧
      (after tangled).Consistent ∧ (after tangled).root = some 5 := by
  have hclean : Clean (NamesAhead (after tangled).size) tangled := by decide +kernel
  exact ⟨hclean, rfl, (consistent_after hclean).1, rfl⟩

end Downline.Arena
