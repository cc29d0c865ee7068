import Downline.Proofs.Arena.Breadth

/-!
# Placing keeps an arena whole

An arena is `Whole` if every node but the root hangs below another one and no two members share an
id. Then every node is at or below the root, so the first walk meets all of them and looking up an
id looks through the whole arena.

Placing a member asks for its id before it inserts the member below a node of the arena. So it
keeps an arena whole (`Whole.place`), and a refusal leaves the arena as it was (`place_eq`). A
member whose id is not found is never refused below a sponsor that is (`Sound.exists_place`).
-/

namespace Downline.Arena

/-! ## Ids -/

def ids (a : Arena) : List String := a.nodes.toList.map (·.member.id)

@[simp] theorem length_ids (a : Arena) : a.ids.length = a.size := by
  rw [ids, List.length_map, Array.length_toList, size]

theorem getElem?_ids (a : Arena) (h : Nat) : a.ids[h]? = (a.node? h).map (·.member.id) := by
  rw [ids, List.getElem?_map, Array.getElem?_toList, node?]

theorem mem_ids_iff {a : Arena} {id : String} :
    id ∈ a.ids ↔ ∃ h n, a.node? h = some n ∧ n.member.id = id := by
  simp only [List.mem_iff_getElem?, getElem?_ids, Option.map_eq_some_iff]

theorem ids_insert (a : Arena) (member : Member) (parent : Option Nat) (leg : Option Leg) :
    (a.insert member parent leg).1.ids = a.ids ++ [member.id] := by
  refine List.ext_getElem? fun h => ?_
  rw [getElem?_ids]
  rcases Nat.lt_trichotomy h a.size with hlt | rfl | hgt
  · rw [node?_insert_old _ _ _ _ hlt, List.getElem?_append_left (by rwa [length_ids]),
      getElem?_ids, Option.map_map]
    simp only [Function.comp_def, member_adopting]
  · rw [node?_insert_new, ← length_ids, List.getElem?_concat_length, Option.map_some,
      member_newcomer]
  · have hnone : (a.insert member parent leg).1.node? h = none := by
      rw [node?, Array.getElem?_eq_none_iff, ← size, size_insert]
      exact hgt
    rw [hnone, Option.map_none, eq_comm, List.getElem?_eq_none_iff, List.length_append, length_ids,
      List.length_singleton]
    exact hgt

theorem find?_of_not_mem_ids {a : Arena} {id : String} (hnot : id ∉ a.ids) : a.find? id = none := by
  rw [Option.eq_none_iff_forall_ne_some]
  intro h hfind
  obtain ⟨-, n, hn, hid⟩ := find?_eq_some hfind
  exact hnot (mem_ids_iff.mpr ⟨h, n, hn, hid⟩)

/-- Members listed by handle have their ids listed so. -/
theorem ids_eq_of_listed {a : Arena} {members : List Member} (hsize : a.size = members.length)
    (hlisted : ∀ {k m}, members[k]? = some m → ∃ n, a.node? k = some n ∧ n.member = m) :
    a.ids = members.map (·.id) := by
  refine List.ext_getElem? fun k => ?_
  rw [getElem?_ids, List.getElem?_map]
  cases hm : members[k]? with
  | none =>
    rw [List.getElem?_eq_none_iff, ← hsize] at hm
    rw [node?, Array.getElem?_eq_none_iff.mpr hm, Option.map_none, Option.map_none]
  | some m =>
    obtain ⟨n, hn, rfl⟩ := hlisted hm
    rw [hn, Option.map_some, Option.map_some]

/-! ## Whole arenas -/

/-- An arena of which nothing is adrift and in which ids are distinct. -/
structure Whole (a : Arena) : Prop extends Sound a where
  hangs : ∀ {h n}, a.node? h = some n → a.root = some h ∨ ∃ p, n.link = .below p
  distinct : a.ids.Nodup

namespace Whole

variable {a : Arena} (ha : a.Whole)

include ha

theorem handle_unique {h k : Nat} {n m : ArenaNode} (hn : a.node? h = some n)
    (hm : a.node? k = some m) (hid : n.member.id = m.member.id) : h = k := by
  have hlt : h < a.ids.length := by
    rw [length_ids]
    exact lt_size_of_node? hn
  refine (List.getElem?_inj hlt ha.distinct).mp ?_
  rw [getElem?_ids, getElem?_ids, hn, hm, Option.map_some, Option.map_some, hid]

/-- A listed node hangs where it is listed, since nothing is adrift. -/
theorem linked_below {h c : Nat} {n : ArenaNode} (hn : a.node? h = some n)
    (hc : c ∈ n.children) : ∃ m, a.node? c = some m ∧ m.link = .below h := by
  obtain ⟨m, hm, hlink | ⟨rfl, hlink⟩⟩ := ha.linked hn hc
  · exact ⟨m, hm, hlink⟩
  · rcases ha.hangs hm with hroot | ⟨p, hbelow⟩
    · obtain ⟨m', hm', htop⟩ := ha.root_top hroot
      obtain rfl : m = m' := Option.some.inj (hm.symm.trans hm')
      cases htop.symm.trans hlink
    · cases hbelow.symm.trans hlink

theorem atOrBelow_root {h : Nat} (hlt : h < a.size) :
    ∃ r, a.root = some r ∧ a.AtOrBelow r h := by
  -- by induction on handles: the node above came earlier
  induction h using Nat.strongRecOn with
  | ind h ih =>
    obtain ⟨n, hn⟩ := exists_node? hlt
    rcases ha.hangs hn with hroot | ⟨p, hlink⟩
    · exact ⟨h, hroot, .refl⟩
    · obtain ⟨hp, m, hm, hmem, -⟩ := ha.listed hn hlink
      obtain ⟨r, hr, hbelow⟩ := ih p hp (lt_size_of_node? hm)
      exact ⟨r, hr, hbelow.tail (childrenOf_eq hm ▸ hmem)⟩

theorem preorder_perm : (a.preorder.map Prod.fst).Perm (List.range a.size) := by
  refine (List.perm_ext_iff_of_nodup ha.nodup_preorder List.nodup_range).mpr fun h => ?_
  rw [List.mem_range]
  constructor
  · intro hh
    obtain ⟨⟨k, n⟩, hmem, rfl⟩ := List.mem_map.mp hh
    exact lt_size_of_node? (node?_of_mem_preorderFrom hmem)
  · exact fun hlt => ha.mem_preorder_iff.mpr (ha.atOrBelow_root hlt)

/-- So an id that is not found is not there. -/
theorem not_mem_ids_of_find? {id : String} (hfind : a.find? id = none) : id ∉ a.ids := by
  intro hmem
  obtain ⟨h, n, hn, hid⟩ := mem_ids_iff.mp hmem
  refine find?_eq_none_iff.mp hfind h ?_ n hn hid
  exact ha.preorder_perm.mem_iff.mpr (List.mem_range.mpr (lt_size_of_node? hn))

theorem find?_of_node? {h : Nat} {n : ArenaNode} (hn : a.node? h = some n) :
    a.find? n.member.id = some h := by
  cases hfind : a.find? n.member.id with
  | none => exact absurd (mem_ids_iff.mpr ⟨h, n, hn, rfl⟩) (ha.not_mem_ids_of_find? hfind)
  | some k =>
    obtain ⟨-, m, hm, hid⟩ := find?_eq_some hfind
    rw [ha.handle_unique hm hn hid]

theorem insert {p : Nat} {above : ArenaNode} (hp : a.node? p = some above) (member : Member)
    (leg : Option Leg) (hnew : member.id ∉ a.ids) :
    (a.insert member (some p) leg).1.Whole where
  toSound := ha.toSound.insert member (some p) leg
  hangs := by
    intro h n hn
    rw [root_insert, if_neg nofun]
    rcases node?_insert_cases hn with ⟨-, rfl⟩ | ⟨old, hold, rfl⟩
    · exact .inr ⟨p, by rw [newcomer_below member leg hp]⟩
    · rw [link_adopting]
      exact ha.hangs hold
  distinct := by
    rw [ids_insert]
    exact List.nodup_append_comm.mpr (List.nodup_cons.mpr ⟨hnew, ha.distinct⟩)

end Whole

/-! ## Placing a member -/

/-- A seat is below a node at or below the sponsor, on no leg in a unilevel tree and on a free one
in a binary tree. -/
structure Vacant (a : Arena) (sponsor : Nat) (shape : TreeType) (p : Nat) (leg : Option Leg)
    (above : ArenaNode) : Prop where
  node : a.node? p = some above
  below : a.AtOrBelow sponsor p
  free : ∀ l, leg = some l → a.standing above l = []
  legged : shape = .binary → leg ≠ none

theorem exists_vacant_of_seat? {a : Arena} {sponsor p : Nat} {leg : Option Leg} {shape : TreeType}
    (hsponsor : ∃ n, a.node? sponsor = some n)
    (hseat : a.seat? sponsor shape = some (p, leg)) :
    ∃ above, a.Vacant sponsor shape p leg above := by
  cases shape with
  | unilevel =>
    cases hseat
    obtain ⟨n, hn⟩ := hsponsor
    exact ⟨n, hn, .refl, nofun, nofun⟩
  | binary =>
    obtain ⟨⟨q, side⟩, hfree, heq⟩ := Option.map_eq_some_iff.mp hseat
    cases heq
    obtain ⟨hbelow, above, habove, hopen⟩ :=
      (finds_of_freeLegFrom hfree).isOpen (P := a.AtOrBelow sponsor)
        (fun k hk => List.mem_singleton.mp hk ▸ .refl) (fun k hk c hc => hk.tail hc)
    refine ⟨above, habove, hbelow, ?_, fun _ => nofun⟩
    intro l hl
    cases hl
    exact standing_of_openLeg? hopen

/-- What is answered for a seat, and what the arena is then. -/
theorem place_of_seat? {a : Arena} {sponsorId : String} {member : Member} {shape : TreeType}
    {sponsor p : Nat} {leg : Option Leg} {above : ArenaNode} (hnew : a.find? member.id = none)
    (hsponsor : a.find? sponsorId = some sponsor)
    (hseat : a.seat? sponsor shape = some (p, leg)) (habove : a.node? p = some above) :
    a.place sponsorId member shape =
      (.ok ⟨a.size, above.member.id, leg, above.depth + 1, p != sponsor⟩,
        (a.insert member (some p) leg).1) := by
  -- the node above the seat is still there after the insertion
  have hthere := node?_insert member (some p) leg habove
  simp only [place, hnew, hsponsor, hseat, hthere, Option.isSome_none, Bool.false_eq_true,
    if_false, member_adopting, depth_adopting, insert_handle]

/-- **A placement is an insertion below a node of the arena**, at the seat that was found, of a
member whose id is not found there; it tells where the new node is. A refusal leaves the arena as
it was. -/
theorem place_eq (a : Arena) (sponsorId : String) (member : Member) (shape : TreeType) :
    (∃ fault, a.place sponsorId member shape = (.error fault, a)) ∨
      ∃ sponsor p leg above, a.find? member.id = none ∧ a.find? sponsorId = some sponsor ∧
        a.seat? sponsor shape = some (p, leg) ∧ a.node? p = some above ∧
        a.place sponsorId member shape =
          (.ok ⟨a.size, above.member.id, leg, above.depth + 1, p != sponsor⟩,
            (a.insert member (some p) leg).1) := by
  cases hnew : a.find? member.id with
  | some h => exact .inl ⟨.duplicateNode member.id, by simp [place, hnew]⟩
  | none =>
    cases hsponsor : a.find? sponsorId with
    | none => exact .inl ⟨.nodeNotFound sponsorId, by simp [place, hnew, hsponsor]⟩
    | some sponsor =>
      cases hseat : a.seat? sponsor shape with
      | none => exact .inl ⟨.noBinarySlot sponsorId, by simp [place, hnew, hsponsor, hseat]⟩
      | some seat =>
        obtain ⟨p, leg⟩ := seat
        obtain ⟨-, n, hn, -⟩ := find?_eq_some hsponsor
        obtain ⟨above, hvacant⟩ := exists_vacant_of_seat? ⟨n, hn⟩ hseat
        exact .inr ⟨sponsor, p, leg, above, rfl, rfl, hseat, hvacant.node,
          place_of_seat? hnew hsponsor hseat hvacant.node⟩

theorem place_cases (a : Arena) (sponsorId : String) (member : Member) (shape : TreeType) :
    (∃ fault, a.place sponsorId member shape = (.error fault, a)) ∨
      ∃ placement p above leg, a.find? member.id = none ∧ a.node? p = some above ∧
        a.place sponsorId member shape = (.ok placement, (a.insert member (some p) leg).1) := by
  rcases a.place_eq sponsorId member shape with h | ⟨_, p, leg, above, hnew, -, -, habove, h⟩
  · exact .inl h
  · exact .inr ⟨_, p, above, leg, hnew, habove, h⟩

/-- What is kept by inserting a member at a vacant seat is kept by placing one. -/
theorem place_induction {P : Arena → Prop} {a : Arena} {sponsorId : String} {member : Member}
    {shape : TreeType} (hP : P a)
    (insert : ∀ sponsor p leg above, a.Vacant sponsor shape p leg above →
      P (a.insert member (some p) leg).1) : P (a.place sponsorId member shape).2 := by
  rcases a.place_eq sponsorId member shape with ⟨_, h⟩ | ⟨k, p, leg, above, -, hfind, hseat, -, h⟩
  · rwa [h]
  · obtain ⟨-, n, hn, -⟩ := find?_eq_some hfind
    obtain ⟨above, hvacant⟩ := exists_vacant_of_seat? ⟨n, hn⟩ hseat
    rw [h]
    exact insert k p leg above hvacant

/-- **Below a sponsor that is found a member is placed whose id is not**, in a tree of either shape:
there always is a seat. -/
theorem Sound.exists_place {a : Arena} (ha : a.Sound) {sponsorId : String} {sponsor : Nat}
    {member : Member} (hnew : a.find? member.id = none)
    (hsponsor : a.find? sponsorId = some sponsor) (shape : TreeType) :
    ∃ p leg above, a.seat? sponsor shape = some (p, leg) ∧ a.Vacant sponsor shape p leg above ∧
      a.place sponsorId member shape =
        (.ok ⟨a.size, above.member.id, leg, above.depth + 1, p != sponsor⟩,
          (a.insert member (some p) leg).1) := by
  obtain ⟨-, n, hn, -⟩ := find?_eq_some hsponsor
  obtain ⟨p, leg, hseat⟩ : ∃ p leg, a.seat? sponsor shape = some (p, leg) := by
    cases shape with
    | unilevel => exact ⟨sponsor, none, rfl⟩
    | binary =>
      obtain ⟨⟨p, leg⟩, hfree, -⟩ := ha.exists_freeLeg? (lt_size_of_node? hn)
      exact ⟨p, some leg, by rw [seat?, hfree, Option.map_some]⟩
  obtain ⟨above, hvacant⟩ := exists_vacant_of_seat? ⟨n, hn⟩ hseat
  exact ⟨p, leg, above, hseat, hvacant, place_of_seat? hnew hsponsor hseat hvacant.node⟩

/-- So a member with a new id is never refused below a member of a whole arena. -/
theorem Whole.exists_place {a : Arena} (ha : a.Whole) {h : Nat} {n : ArenaNode}
    (hn : a.node? h = some n) {member : Member} (hnew : member.id ∉ a.ids) (shape : TreeType) :
    ∃ p leg above, a.seat? h shape = some (p, leg) ∧ a.Vacant h shape p leg above ∧
      a.place n.member.id member shape =
        (.ok ⟨a.size, above.member.id, leg, above.depth + 1, p != h⟩,
          (a.insert member (some p) leg).1) :=
  ha.toSound.exists_place (find?_of_not_mem_ids hnew) (ha.find?_of_node? hn) shape

/-! ## Attempts one after the other -/

structure Attempt where
  sponsorId : String
  member : Member
  shape : TreeType
  deriving DecidableEq, Repr

/-- Makes attempts one after the other. Answers the members that were placed, in this order, and
the arena afterwards. -/
def placeAll (a : Arena) : List Attempt → List Member × Arena
  | [] => ([], a)
  | t :: ts =>
    match a.place t.sponsorId t.member t.shape with
    | (.error _, a) => a.placeAll ts
    | (.ok _, a) => ((t.member :: (a.placeAll ts).1), (a.placeAll ts).2)

/-- The answers to attempts made one after the other. -/
def answers (a : Arena) : List Attempt → List (Except Fault Placement)
  | [] => []
  | t :: ts =>
    (a.place t.sponsorId t.member t.shape).1 :: (a.place t.sponsorId t.member t.shape).2.answers ts

@[simp] theorem placeAll_cons_snd (a : Arena) (t : Attempt) (ts : List Attempt) :
    (a.placeAll (t :: ts)).2 = ((a.place t.sponsorId t.member t.shape).2.placeAll ts).2 := by
  rw [placeAll]
  split
  next h => rw [h]
  next h => rw [h]

theorem Whole.place {a : Arena} (ha : a.Whole) (sponsorId : String) (member : Member)
    (shape : TreeType) : (a.place sponsorId member shape).2.Whole := by
  rcases a.place_cases sponsorId member shape with ⟨_, h⟩ | ⟨_, p, above, leg, hnew, hp, h⟩
  · rwa [h]
  · rw [h]
    exact ha.insert hp member leg (ha.not_mem_ids_of_find? hnew)

/-- **Any number of attempts keeps an arena whole** and adds the ids of the members placed. -/
theorem Whole.placeAll {a : Arena} (ha : a.Whole) (attempts : List Attempt) :
    (a.placeAll attempts).2.Whole ∧
      (a.placeAll attempts).2.ids = a.ids ++ (a.placeAll attempts).1.map (·.id) := by
  induction attempts generalizing a with
  | nil => exact ⟨ha, (List.append_nil _).symm⟩
  | cons t ts ih =>
    have hstep := ha.place t.sponsorId t.member t.shape
    rw [Arena.placeAll]
    rcases a.place_cases t.sponsorId t.member t.shape with ⟨_, h⟩ | ⟨_, p, above, leg, -, -, h⟩
    · rw [h]
      exact ih ha
    · rw [h] at hstep ⊢
      obtain ⟨hwhole, hids⟩ := ih hstep
      refine ⟨hwhole, ?_⟩
      rw [hids, ids_insert, List.map_cons, List.append_assoc, List.singleton_append]

/-- So what each attempt keeps of a whole arena, any number of them does. -/
theorem Whole.placeAll_induction {P : Arena → Prop} {attempts : List Attempt} {a : Arena}
    (ha : a.Whole) (hP : P a)
    (step : ∀ t ∈ attempts, ∀ a : Arena, a.Whole → P a →
      P (a.place t.sponsorId t.member t.shape).2) : P (a.placeAll attempts).2 := by
  induction attempts generalizing a with
  | nil => exact hP
  | cons t ts ih =>
    rw [placeAll_cons_snd]
    refine ih (ha.place t.sponsorId t.member t.shape) (step t List.mem_cons_self a ha hP) ?_
    exact fun u hu => step u (List.mem_cons_of_mem t hu)

end Downline.Arena
