import Downline.Proofs.Arena.Placing
import Mathlib.Data.Nat.Log
import Mathlib.Order.MinMax

/-!
# One sponsor fills a binary tree row by row

When all new members are placed below the root of a binary tree, the tree is complete at any time:
numbered in order of placement, with the root as number 0, the members stand row by row from the
left. So the parent of number `k` is number `(k - 1) / 2`, its children are to be `2 * k + 1` and
`2 * k + 2`, and it stands in row `log2 (k + 1)`.

`Complete` says this of an arena. The search of the next placement takes the numbers from 0 on in
order, with the numbers `j` to `2 * j` in its queue when it comes to `j`, and ends at the first one
that has not two children (`Complete.finds`). So a placement adds the next number
(`Complete.place_root`), and any number of placements fills row by row (`fill_row_by_row`).
-/

namespace Downline.Arena

/-! ## Numbers row by row -/

/-- The leg that a number stands on. -/
def side (k : Nat) : Leg := if k % 2 = 1 then .left else .right

@[simp] theorem side_left (k : Nat) : side (2 * k + 1) = .left := if_pos (by omega)

@[simp] theorem side_right (k : Nat) : side (2 * k + 2) = .right := if_neg (by omega)

theorem log2_parent {k : Nat} (hk : 0 < k) :
    Nat.log2 ((k - 1) / 2 + 1) + 1 = Nat.log2 (k + 1) := by
  have hhalf : (k - 1) / 2 + 1 = (k + 1) / 2 := by omega
  rw [hhalf, Nat.log2_def (k + 1), if_pos (by omega)]

theorem log2_mono {k n : Nat} (h : k ≤ n) : Nat.log2 k ≤ Nat.log2 n := by
  rw [Nat.log2_eq_log_two, Nat.log2_eq_log_two]
  exact Nat.log_mono_right h

/-- The number of rows that so many numbers take. -/
theorem foldl_max_log2 (n : Nat) :
    ((List.range (n + 1)).map fun k => Nat.log2 (k + 1) + 1).foldl max 0 =
      Nat.log2 (n + 1) + 1 := by
  induction n with
  | zero => rfl
  | succ n ih =>
    rw [List.range_succ, List.map_append, List.foldl_append, ih]
    exact max_eq_right (Nat.succ_le_succ (log2_mono (Nat.le_succ _)))

/-- The node of a number among so many; the root stands on the given leg, if on any. -/
def rowNode (count : Nat) (leg : Option Leg) (k : Nat) (m : Member) : ArenaNode where
  member := m
  link := if k = 0 then .top else .below ((k - 1) / 2)
  children := [2 * k + 1, 2 * k + 2].filter (· < count)
  leg := if k = 0 then leg else some (side k)
  depth := Nat.log2 (k + 1)

@[simp] theorem children_rowNode (count : Nat) (leg : Option Leg) (k : Nat) (m : Member) :
    (rowNode count leg k m).children = [2 * k + 1, 2 * k + 2].filter (· < count) := rfl

theorem mem_children_rowNode {count k c : Nat} {leg : Option Leg} {m : Member} :
    c ∈ (rowNode count leg k m).children ↔ (c = 2 * k + 1 ∨ c = 2 * k + 2) ∧ c < count := by
  rw [children_rowNode, List.mem_filter, List.mem_pair, decide_eq_true_iff]

/-- One more number is a child of its parent's. -/
theorem children_rowNode_succ {count : Nat} (hcount : 0 < count) (leg : Option Leg) (k : Nat)
    (m : Member) :
    (rowNode (count + 1) leg k m).children =
      (rowNode count leg k m).children ++ if (count - 1) / 2 = k then [count] else [] := by
  rw [children_rowNode, children_rowNode]
  by_cases hchild : (count - 1) / 2 = k
  · rw [if_pos hchild]
    obtain rfl | rfl : count = 2 * k + 1 ∨ count = 2 * k + 2 := by omega
    · simp
    · simp
  · rw [if_neg hchild, List.append_nil]
    refine List.filter_congr fun c hc => ?_
    have hc := List.mem_pair.mp hc
    rw [decide_eq_decide]
    omega

section Insert

variable {a : Arena} (hpos : 0 < a.size) (leg : Option Leg)

include hpos

theorem adopting_rowNode (k : Nat) (m : Member) :
    a.adopting (some ((a.size - 1) / 2)) k (rowNode a.size leg k m) =
      rowNode (a.size + 1) leg k m := by
  have hchildren : rowNode (a.size + 1) leg k m = { rowNode a.size leg k m with
      children := (rowNode (a.size + 1) leg k m).children } := rfl
  rw [hchildren, children_rowNode_succ hpos, adopting]
  split
  next h => rw [if_pos (Option.some.inj h)]
  next h => rw [if_neg (h ∘ congrArg some), List.append_nil]

theorem newcomer_rowNode {above : Member}
    (habove : a.node? ((a.size - 1) / 2) = some (rowNode a.size leg ((a.size - 1) / 2) above))
    (m : Member) :
    a.newcomer m (some ((a.size - 1) / 2)) (some (side a.size)) =
      rowNode (a.size + 1) leg a.size m := by
  have hchildless : (rowNode (a.size + 1) leg a.size m).children = [] := by
    refine List.eq_nil_iff_forall_not_mem.mpr fun c hc => ?_
    have hchild := mem_children_rowNode.mp hc
    omega
  rw [newcomer_below m _ habove, rowNode, rowNode, if_neg hpos.ne', if_neg hpos.ne',
    log2_parent hpos]
  exact congrArg (ArenaNode.mk m _ · _ _) hchildless.symm

end Insert

/-- The members make a complete binary tree, numbered row by row from the left. -/
structure Complete (a : Arena) (members : List Member) (leg : Option Leg) : Prop where
  root : a.root = some 0
  size : a.size = members.length
  node : ∀ {k m}, members[k]? = some m → a.node? k = some (rowNode members.length leg k m)

namespace Complete

variable {a : Arena} {members : List Member} {leg : Option Leg} (h : a.Complete members leg)

include h

theorem exists_node {k : Nat} (hk : k < members.length) :
    ∃ m, members[k]? = some m ∧ a.node? k = some (rowNode members.length leg k m) := by
  have hm := List.getElem?_eq_getElem hk
  exact ⟨members[k], hm, h.node hm⟩

/-- The next number keeps the tree complete. -/
theorem insert (hpos : 0 < members.length) (m : Member) :
    (a.insert m (some ((members.length - 1) / 2)) (some (side members.length))).1.Complete
      (members ++ [m]) leg where
  root := by rw [root_insert, if_neg nofun, h.root]
  size := by rw [size_insert, h.size, List.length_append, List.length_singleton]
  node := by
    intro k m' hm'
    rw [List.length_append, List.length_singleton]
    obtain hold | ⟨rfl, rfl⟩ : members[k]? = some m' ∨ k = members.length ∧ m' = m := by grind
    · rw [node?_insert _ _ _ (h.node hold), ← h.size, adopting_rowNode (h.size ▸ hpos)]
    · obtain ⟨above, -, habove⟩ := h.exists_node (k := (members.length - 1) / 2) (by omega)
      rw [← h.size] at hpos habove ⊢
      rw [node?_insert_new, newcomer_rowNode hpos leg habove]

/-! ## The search from the root -/

theorem leg_of_lt {c : Nat} (hpos : 0 < c) (hc : c < members.length) :
    (a.node? c).bind (·.leg) = some (side c) := by
  obtain ⟨m, -, hm⟩ := h.exists_node hc
  rw [hm, Option.bind_some]
  exact if_neg hpos.ne'

theorem standing_rowNode (k : Nat) (m : Member) (l : Leg) :
    a.standing (rowNode members.length leg k m) l =
      (rowNode members.length leg k m).children.filter (side · = l) := by
  refine List.filter_congr fun c hc => ?_
  obtain ⟨hchild, hlt⟩ := mem_children_rowNode.mp hc
  rw [h.leg_of_lt (by omega) hlt, decide_eq_decide, Option.some.injEq]

theorem onLeg?_rowNode (k : Nat) (m : Member) (l : Leg) :
    a.onLeg? (rowNode members.length leg k m) l =
      (rowNode members.length leg k m).children.find? (side · = l) := by
  rw [onLeg?_eq_head?, h.standing_rowNode, List.head?_filter]

/-- A number whose children are both there is passed by. -/
theorem onLegs_of_lt {k : Nat} (hk : 2 * k + 2 < members.length) (m : Member) :
    a.openLeg? (rowNode members.length leg k m) = none ∧
      a.onLegs (rowNode members.length leg k m) = [2 * k + 1, 2 * k + 2] := by
  have hleft : a.onLeg? (rowNode members.length leg k m) .left = some (2 * k + 1) := by
    simp [h.onLeg?_rowNode, hk, Nat.lt_of_succ_lt hk]
  have hright : a.onLeg? (rowNode members.length leg k m) .right = some (2 * k + 2) := by
    simp [h.onLeg?_rowNode, hk, Nat.lt_of_succ_lt hk]
  simp [openLeg?, onLegs, hleft, hright]

/-- The next number's parent has its leg free. -/
theorem openLeg?_parent (hpos : 0 < members.length) (m : Member) :
    a.openLeg? (rowNode members.length leg ((members.length - 1) / 2) m) =
      some (side members.length) := by
  obtain ⟨k, hk⟩ : ∃ k, members.length = 2 * k + 1 ∨ members.length = 2 * k + 2 :=
    ⟨(members.length - 1) / 2, by omega⟩
  have hparent : (members.length - 1) / 2 = k := by omega
  have honLeg := h.onLeg?_rowNode k m
  rw [hparent]
  rcases hk with hlen | hlen
  · rw [hlen] at honLeg ⊢
    simp [openLeg?, honLeg]
  · rw [hlen] at honLeg ⊢
    simp [openLeg?, honLeg]

/-- The search comes to each number up to the next one's parent, with as many numbers in its
queue as it has passed by, and one more. -/
theorem finds (hpos : 0 < members.length) {j : Nat} (hj : j ≤ (members.length - 1) / 2) :
    a.Finds (List.range' j (j + 1)) ((members.length - 1) / 2, side members.length) := by
  -- downwards from where the search ends
  induction hj using Nat.decreasingInduction with
  | self =>
    obtain ⟨m, -, hm⟩ := h.exists_node (k := (members.length - 1) / 2) (by omega)
    exact .here hm (h.openLeg?_parent hpos m)
  | of_succ j hj ih =>
    obtain ⟨m, -, hm⟩ := h.exists_node (k := j) (by omega)
    obtain ⟨hfull, hlegs⟩ := h.onLegs_of_lt (k := j) (by omega) m
    refine .further hm hfull ?_
    have hqueue : List.range' (j + 1) (j + 1 + 1) =
        List.range' (j + 1) j ++ [2 * j + 1, 2 * j + 2] := by
      have hleft : j + 1 + 1 * j = 2 * j + 1 := by omega
      have hright : j + 1 + 1 * (j + 1) = 2 * j + 2 := by omega
      rw [List.range'_concat, List.range'_concat, hleft, hright, List.append_assoc]
      rfl
    rwa [hlegs, ← hqueue]

/-! ## Placing one member after the other -/

theorem ids_eq : a.ids = members.map (·.id) :=
  ids_eq_of_listed h.size fun hm => ⟨_, h.node hm, rfl⟩

theorem whole (ha : a.Sound) (hdistinct : (members.map (·.id)).Nodup) : a.Whole where
  toSound := ha
  hangs := by
    intro k n hn
    obtain ⟨m, -, hm⟩ := h.exists_node (h.size ▸ lt_size_of_node? hn)
    obtain rfl := Option.some.inj (hn.symm.trans hm)
    rcases Nat.eq_zero_or_pos k with rfl | hk
    · exact .inl h.root
    · exact .inr ⟨(k - 1) / 2, if_neg hk.ne'⟩
  distinct := h.ids_eq ▸ hdistinct

/-- The last row is that of the last number. -/
theorem depth_eq (ha : a.Whole) (hpos : 0 < members.length) :
    a.depth = Nat.log2 members.length + 1 := by
  have hrows : a.preorder.map (fun e => e.2.depth + 1) =
      (a.preorder.map Prod.fst).map fun k => Nat.log2 (k + 1) + 1 := by
    rw [List.map_map]
    refine List.map_congr_left fun e he => ?_
    have hn := node?_of_mem_preorderFrom he
    obtain ⟨m, -, hm⟩ := h.exists_node (h.size ▸ lt_size_of_node? hn)
    rw [Option.some.inj (hn.symm.trans hm)]
    rfl
  obtain ⟨n, hn⟩ := Nat.exists_eq_succ_of_ne_zero hpos.ne'
  rw [depth, hrows, (ha.preorder_perm.map _).foldl_eq, h.size, hn, foldl_max_log2]

/-- **The next member placed below the root gets the next number.** -/
theorem place_root (ha : a.Whole) {root : Member} (hroot : members[0]? = some root) {m : Member}
    (hnew : m.id ∉ members.map (·.id)) :
    ∃ above, members[(members.length - 1) / 2]? = some above ∧
      a.place root.id m .binary =
        (.ok ⟨members.length, above.id, some (side members.length), Nat.log2 (members.length + 1),
          decide (3 ≤ members.length)⟩,
          (a.insert m (some ((members.length - 1) / 2)) (some (side members.length))).1) := by
  have hpos : 0 < members.length := List.length_pos_of_mem (List.mem_of_getElem? hroot)
  obtain ⟨above, hmem, habove⟩ := h.exists_node (k := (members.length - 1) / 2) (by omega)
  have hseat : a.seat? 0 .binary =
      some ((members.length - 1) / 2, some (side members.length)) := by
    rw [seat?, (ha.freeLeg?_eq_some_iff (h.size ▸ hpos)).mpr (h.finds hpos (Nat.zero_le _)),
      Option.map_some]
  have hplace := place_of_seat? (find?_of_not_mem_ids (h.ids_eq ▸ hnew))
    (ha.find?_of_node? (h.node hroot)) hseat habove
  have hspill : ((members.length - 1) / 2 != 0) = decide (3 ≤ members.length) := by
    rw [bne, beq_eq_decide, ← decide_not, decide_eq_decide]
    omega
  refine ⟨above, hmem, hplace.trans ?_⟩
  rw [h.size, hspill, ← log2_parent hpos]
  rfl

end Complete

/-- Attempts to place members below one sponsor of a binary tree. -/
def Attempt.under (sponsorId : String) (members : List Member) : List Attempt :=
  members.map fun m => ⟨sponsorId, m, .binary⟩

@[simp] theorem Attempt.under_cons (sponsorId : String) (m : Member) (ms : List Member) :
    under sponsorId (m :: ms) = ⟨sponsorId, m, .binary⟩ :: under sponsorId ms := rfl

/-- From a complete tree on, members placed below the root are numbered on. -/
theorem Complete.run {a : Arena} {placed members : List Member} {leg : Option Leg} {root : Member}
    (h : a.Complete placed leg) (ha : a.Sound) (hroot : placed[0]? = some root)
    (hdistinct : ((placed ++ members).map (·.id)).Nodup) :
    (a.placeAll (Attempt.under root.id members)).1 = members ∧
      (a.placeAll (Attempt.under root.id members)).2.Sound ∧
      (a.placeAll (Attempt.under root.id members)).2.Complete (placed ++ members) leg ∧
      ∀ k m, placed.length ≤ k → (placed ++ members)[k]? = some m →
        ∃ above, (placed ++ members)[(k - 1) / 2]? = some above ∧
          (a.answers (Attempt.under root.id members))[k - placed.length]? =
            some (.ok ⟨k, above.id, some (side k), Nat.log2 (k + 1), decide (3 ≤ k)⟩) := by
  induction members generalizing a placed with
  | nil =>
    rw [List.append_nil]
    refine ⟨rfl, ha, h, fun k m hk hm => ?_⟩
    cases (List.getElem?_eq_none hk).symm.trans hm
  | cons m ms ih =>
    have hpos : 0 < placed.length := List.length_pos_of_mem (List.mem_of_getElem? hroot)
    obtain ⟨hold, -, hdisjoint⟩ := List.nodup_append.mp (List.map_append ▸ hdistinct)
    have hnew : m.id ∉ placed.map (·.id) := fun hmem =>
      hdisjoint _ hmem m.id List.mem_cons_self rfl
    obtain ⟨above, habove, hplace⟩ := h.place_root (h.whole ha hold) hroot hnew
    -- the rest is placed into the tree that holds `m` too
    have hsnoc : placed ++ m :: ms = placed ++ [m] ++ ms := by simp
    obtain ⟨hall, hsound, hcomplete, hanswers⟩ := ih (h.insert hpos m)
      (ha.insert m (some ((placed.length - 1) / 2)) (some (side placed.length)))
      (by rw [List.getElem?_append_left hpos, hroot]) (hsnoc ▸ hdistinct)
    simp only [Attempt.under_cons, placeAll, answers, hplace]
    refine ⟨by rw [hall], hsound, hsnoc ▸ hcomplete, fun k m' hk hm' => ?_⟩
    rcases Nat.eq_or_lt_of_le hk with rfl | hlt
    · refine ⟨above, ?_, by rw [Nat.sub_self]; rfl⟩
      rw [List.getElem?_append_left (by omega), habove]
    · have hlength : (placed ++ [m]).length = placed.length + 1 := by simp
      obtain ⟨above', habove', hanswer⟩ := hanswers k m' (hlength ▸ hlt) (hsnoc ▸ hm')
      have hindex : k - placed.length = k - (placed ++ [m]).length + 1 := by omega
      refine ⟨above', hsnoc ▸ habove', ?_⟩
      rw [hindex, List.getElem?_cons_succ, hanswer]

/-! ## From a lone root on -/

/-- An arena that holds nothing but a root. -/
def lone (root : Member) (leg : Option Leg) : Arena := (empty.insert root none leg).1

theorem complete_lone (root : Member) (leg : Option Leg) : (lone root leg).Complete [root] leg where
  root := rfl
  size := rfl
  node := by
    intro k m hm
    obtain ⟨rfl, rfl⟩ : k = 0 ∧ m = root := by
      cases k with
      | zero => exact ⟨rfl, (Option.some.inj hm).symm⟩
      | succ k => cases hm
    rfl

/-- No other whole arena has a single node. -/
theorem Whole.eq_lone {a : Arena} (ha : a.Whole) (hsize : a.size = 1) :
    ∃ root leg, a = lone root leg := by
  obtain ⟨n, hnodes⟩ := Array.size_eq_one_iff.mp hsize
  have hn : a.node? 0 = some n := by rw [node?, hnodes]; rfl
  obtain ⟨r, hr, -⟩ := ha.atOrBelow_root (lt_size_of_node? hn)
  have honly : ∀ k < a.size, k = 0 := by omega
  obtain rfl := honly r (ha.root_lt_size hr)
  obtain ⟨n', hn', htop⟩ := ha.root_top hr
  obtain rfl := Option.some.inj (hn.symm.trans hn')
  have hdepth : n.depth = 0 := ha.depth_zero hn fun p hp => by cases htop.symm.trans hp
  have hchildren : n.children = [] := by
    refine List.eq_nil_iff_forall_not_mem.mpr fun c hc => ?_
    have hc := childrenOf_eq hn ▸ hc
    obtain rfl := honly c (ha.child_lt_size hc)
    exact ha.root_not_child hr 0 hc
  refine ⟨n.member, n.leg, ?_⟩
  obtain ⟨nodes, root⟩ := a
  obtain ⟨member, link, children, leg, depth⟩ := n
  cases hnodes
  cases hr
  cases htop
  cases hdepth
  cases hchildren
  rfl

/-- **Members placed below one sponsor fill a complete binary tree row by row from the left.** Every
placement succeeds. With the sponsor as number 0, member number `k` hangs below number
`(k - 1) / 2`, on the left leg if `k` is odd, in row `log2 (k + 1)`; from number 3 on it hangs below
someone other than its sponsor. -/
theorem fill_row_by_row (root : Member) (leg : Option Leg) (members : List Member)
    (hdistinct : ((root :: members).map (·.id)).Nodup) :
    ((lone root leg).placeAll (Attempt.under root.id members)).1 = members ∧
      (∀ k m, 0 < k → (root :: members)[k]? = some m →
        ∃ above, (root :: members)[(k - 1) / 2]? = some above ∧
          ((lone root leg).answers (Attempt.under root.id members))[k - 1]? =
            some (.ok ⟨k, above.id, some (if k % 2 = 1 then .left else .right),
              Nat.log2 (k + 1), decide (3 ≤ k)⟩)) ∧
      ((lone root leg).placeAll (Attempt.under root.id members)).2.Complete (root :: members) leg ∧
      ((lone root leg).placeAll (Attempt.under root.id members)).2.depth =
        Nat.log2 (members.length + 1) + 1 := by
  obtain ⟨hall, hsound, hcomplete, hanswers⟩ := (complete_lone root leg).run
    (sound_empty.insert root none leg) rfl hdistinct
  refine ⟨hall, hanswers, hcomplete, ?_⟩
  exact hcomplete.depth_eq (hcomplete.whole hsound hdistinct) (Nat.succ_pos _)

def plain (id : String) : Member := ⟨id, "", "", 0, 0, .active⟩

def sixMembers : List Member := ["b", "c", "d", "e", "f", "g"].map plain

/-- Six members below a sponsor fill two rows; the last one is on the right below the second. -/
theorem fill_row_by_row_six :
    ((plain "a" :: sixMembers).map (·.id)).Nodup ∧
      ((lone (plain "a") none).placeAll (Attempt.under "a" sixMembers)).1 = sixMembers ∧
      ((lone (plain "a") none).answers (Attempt.under "a" sixMembers))[5]? =
        some (.ok ⟨6, "c", some .right, 2, true⟩) ∧
      ((lone (plain "a") none).placeAll (Attempt.under "a" sixMembers)).2.depth = 3 := by
  have hdistinct : ((plain "a" :: sixMembers).map (·.id)).Nodup := by decide
  obtain ⟨hall, hanswers, -, hdepth⟩ := fill_row_by_row (plain "a") none sixMembers hdistinct
  obtain ⟨above, habove, hlast⟩ := hanswers 6 _ (by decide) rfl
  cases habove
  exact ⟨hdistinct, hall, hlast, hdepth⟩

end Downline.Arena
