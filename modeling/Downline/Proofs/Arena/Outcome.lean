import Downline.Proofs.Arena.Calls

/-!
# What comes of an attempt

The arenas here are those that calls lead to. They may hold nodes that are not at or below the root,
and such nodes count neither as sponsors nor as members that are there already; so an id can come
twice.

From any node the search for a free leg comes to the first one (`freeLeg?_first`). So an attempt to
place a member is refused for one of two reasons: the member's id is present already, or the
sponsor's is not (`Sound.fault_cases`). Both are asked before anything is inserted, and a refusal
leaves the arena as it was. No attempt is refused for want of a seat (`search_ends`), and the node
above the new one is still there after the insertion.

In every other case the member is placed, and `Placed` says what that is: one node is new and is
listed last by the node above it, nothing else is changed, and what is told of the new node is what
the arena holds of it (`place_outcome`).
-/

namespace Downline.Arena

variable {a b : Arena} {start : Nat}

/-! ## The search -/

/-- **The search answers the first free leg** of any arena that calls lead to, from any of its nodes
on: whether or not the node is below the root, whatever children stand on no leg or on a leg that is
taken, and even if the node is its own child. -/
theorem Reached.freeLeg?_first (ha : a.Reached) (hstart : start < a.size) :
    ∃ path h leg, a.freeLeg? start = some (h, leg) ∧ a.FirstFree start path h leg := by
  obtain ⟨path, h, leg, hfirst⟩ := ha.sound.exists_firstFree hstart
  exact ⟨path, h, leg, hfirst.freeLeg?_eq ha.sound hstart, hfirst⟩

/-- A top with a child on no leg, one on the right leg and two on the left one, of which only the
first has both legs taken; and a node that is its own left child, with another one on its right
leg. -/
def spread : List Call :=
  let bare (id : String) : Member := ⟨id, "", "", 0, 0, .active⟩
  [.insert (bare "a") none none, .insert (bare "b") (some 0) none,
    .insert (bare "c") (some 0) (some .right), .insert (bare "d") (some 0) (some .left),
    .insert (bare "e") (some 0) (some .left), .insert (bare "f") (some 3) (some .left),
    .insert (bare "g") (some 3) (some .right), .insert (bare "h") (some 2) (some .left),
    .insert (bare "i") (some 8) (some .left), .insert (bare "j") (some 8) (some .right)]

theorem freeLeg?_first_spread :
    (∃ path, (after spread).FirstFree 0 path 2 .right) ∧
      ∃ path, (after spread).FirstFree 8 path 9 .left := by
  have hreached := reached_after spread
  have hlt : 0 < (after spread).size := by decide
  have hlt' : 8 < (after spread).size := by decide
  obtain ⟨path, h, leg, hfree, hfirst⟩ := hreached.freeLeg?_first hlt
  obtain ⟨path', h', leg', hfree', hfirst'⟩ := hreached.freeLeg?_first hlt'
  have htop : (after spread).freeLeg? 0 = some (2, .right) := by decide +kernel
  have hself : (after spread).freeLeg? 8 = some (9, .left) := by decide +kernel
  rw [htop] at hfree
  rw [hself] at hfree'
  cases hfree
  cases hfree'
  exact ⟨⟨path, hfirst⟩, path', hfirst'⟩

/-! ## Refusals -/

namespace Sound

variable (ha : a.Sound) {sponsorId : String} {member : Member}

include ha

theorem place_of_present (hmember : a.Present member.id) (sponsorId : String) (shape : TreeType) :
    a.place sponsorId member shape = (.error (.duplicateNode member.id), a) := by
  obtain ⟨h, hfind⟩ := ha.exists_find?_iff.mpr hmember
  simp only [place, hfind, Option.isSome_some, if_true]

theorem place_of_absent (hmember : ¬ a.Present member.id) (hsponsor : ¬ a.Present sponsorId)
    (shape : TreeType) :
    a.place sponsorId member shape = (.error (.nodeNotFound sponsorId), a) := by
  have hnew := ha.find?_eq_none_iff_absent.mpr hmember
  have hnone := ha.find?_eq_none_iff_absent.mpr hsponsor
  simp only [place, hnew, hnone, Option.isSome_none, Bool.false_eq_true, if_false]

end Sound

/-! ## Placements -/

/-- A member was placed below a sponsor, as the child of a node `p`, and `told` tells where. -/
structure Placed (a b : Arena) (sponsor p : Nat) (member : Member) (shape : TreeType)
    (told : Placement) : Prop where
  /-- The node above the new one is the sponsor or below it. -/
  below : a.AtOrBelow sponsor p
  /-- One node is new. It is the one that is told of, and it holds what is told. -/
  size : b.size = a.size + 1
  fresh : a.node? told.handle = none
  added : b.node? told.handle = some ⟨member, .below p, [], told.leg, told.depth⟩
  /-- The node above it lists it last and is the same in all else. It is the one that is told of,
  and the new node is one deeper. -/
  above : ∃ n, a.node? p = some n ∧
    b.node? p = some { n with children := n.children ++ [told.handle] } ∧
    n.member.id = told.parentId ∧ n.depth + 1 = told.depth
  /-- All other nodes are the same, and so is the root. -/
  others : ∀ {h n}, a.node? h = some n → h ≠ p → b.node? h = some n
  root : b.root = a.root
  spillover : told.spillover = true ↔ p ≠ sponsor
  unilevel : shape = .unilevel → told.leg = none ∧ told.spillover = false
  binary : shape = .binary → told.leg ≠ none

/-- What inserting a member at the seat that was found does, and what is told of it. -/
theorem Vacant.placed {sponsor p : Nat} {leg : Option Leg} {shape : TreeType} {above : ArenaNode}
    (hvacant : a.Vacant sponsor shape p leg above) (hseat : a.seat? sponsor shape = some (p, leg))
    (member : Member) :
    a.Placed (a.insert member (some p) leg).1 sponsor p member shape
      ⟨a.size, above.member.id, leg, above.depth + 1, p != sponsor⟩ where
  below := hvacant.below
  size := size_insert ..
  fresh := a.node?_size
  added := by rw [node?_insert_new, newcomer_below member leg hvacant.node]
  above := by
    refine ⟨above, hvacant.node, ?_, rfl, rfl⟩
    rw [node?_insert member (some p) leg hvacant.node, adopting_self]
  others := by
    intro h n hn hne
    have hother : some p ≠ some h := fun heq => hne (Option.some.inj heq).symm
    rw [node?_insert member (some p) leg hn, adopting_of_ne a hother, id]
  root := by rw [root_insert, if_neg nofun]
  spillover := bne_iff_ne
  unilevel := by
    rintro rfl
    cases hseat
    exact ⟨rfl, bne_self_eq_false _⟩
  binary := hvacant.legged

/-- **What is not refused is placed.** -/
theorem Sound.exists_placed (ha : a.Sound) {sponsorId : String} {member : Member}
    (hmember : ¬ a.Present member.id) (hsponsor : a.Present sponsorId) (shape : TreeType) :
    ∃ sponsor p told b, a.find? sponsorId = some sponsor ∧ a.Carries sponsor sponsorId ∧
      a.place sponsorId member shape = (.ok told, b) ∧ a.Placed b sponsor p member shape told := by
  obtain ⟨sponsor, hfind⟩ := ha.exists_find?_iff.mpr hsponsor
  obtain ⟨p, leg, above, hseat, hvacant, hplace⟩ :=
    ha.exists_place (ha.find?_eq_none_iff_absent.mpr hmember) hfind shape
  exact ⟨sponsor, p, _, _, hfind, ha.carries_of_find? hfind, hplace, hvacant.placed hseat member⟩

/-- So there are two reasons for a refusal. -/
theorem Sound.fault_cases (ha : a.Sound) {sponsorId : String} {member : Member} {shape : TreeType}
    {fault : Fault} (hfault : (a.place sponsorId member shape).1 = .error fault) :
    fault = .duplicateNode member.id ∧ a.Present member.id ∨
      fault = .nodeNotFound sponsorId ∧ ¬ a.Present sponsorId := by
  by_cases hmember : a.Present member.id
  · rw [ha.place_of_present hmember] at hfault
    exact .inl ⟨(Except.error.inj hfault).symm, hmember⟩
  by_cases hsponsor : a.Present sponsorId
  · obtain ⟨_, _, _, _, -, -, hplace, -⟩ := ha.exists_placed hmember hsponsor shape
    rw [hplace] at hfault
    cases hfault
  · rw [ha.place_of_absent hmember hsponsor] at hfault
    exact .inr ⟨(Except.error.inj hfault).symm, hsponsor⟩

/-! ## The outcome -/

/-- **The search for a free leg ends at one**, from any node of an arena that calls lead to: it
needs no more than four times as many steps as there are nodes, and more steps change nothing. So in
a binary tree there is no refusal for want of a seat. -/
theorem Reached.search_ends (ha : a.Reached) :
    (∀ start < a.size, ∃ seat, a.Finds [start] seat ∧
        (∀ fuel, 4 * a.size ≤ fuel → a.freeLegFrom fuel [start] = some seat) ∧
        a.AtOrBelow start seat.1 ∧ ∃ n, a.node? seat.1 = some n ∧ a.standing n seat.2 = []) ∧
      ∀ sponsorId member,
        (∀ id, (a.place sponsorId member .binary).1 ≠ .error (.noBinarySlot id)) ∧
        ∀ fault, (a.place sponsorId member .binary).1 = .error fault →
          fault = .duplicateNode member.id ∧ a.Present member.id ∨
            fault = .nodeNotFound sponsorId ∧ ¬ a.Present sponsorId := by
  constructor
  · intro start hstart
    obtain ⟨seat, hfree, hfinds⟩ := ha.sound.exists_freeLeg? hstart
    obtain ⟨hbelow, n, hn, hopen⟩ := hfinds.isOpen (P := a.AtOrBelow start)
      (fun k hk => List.mem_singleton.mp hk ▸ .refl) (fun k hk c hc => hk.tail hc)
    refine ⟨seat, hfinds, ?_, hbelow, n, hn, standing_of_openLeg? hopen⟩
    exact fun fuel hfuel => freeLegFrom_of_le hfree hfuel
  · intro sponsorId member
    refine ⟨fun id hfault => ?_, fun fault hfault => ha.sound.fault_cases hfault⟩
    rcases ha.sound.fault_cases hfault with ⟨h, -⟩ | ⟨h, -⟩ <;> cases h

theorem search_ends_spread :
    (∀ fuel, 40 ≤ fuel → (after spread).freeLegFrom fuel [8] = some (9, .left)) ∧
      ∀ id, ((after spread).place "a" (Record.bare "k" none none).member .binary).1 ≠
        .error (.noBinarySlot id) := by
  obtain ⟨hsearch, hplace⟩ := (reached_after spread).search_ends
  have hlt : 8 < (after spread).size := by decide
  obtain ⟨seat, -, hends, -⟩ := hsearch 8 hlt
  have hseat : (after spread).freeLegFrom 40 [8] = some (9, .left) := by decide +kernel
  obtain rfl : seat = (9, .left) := Option.some.inj ((hends 40 (by decide)).symm.trans hseat)
  exact ⟨hends, (hplace "a" (Record.bare "k" none none).member).1⟩

/-- **What comes of an attempt**, in an arena that calls lead to: it is refused if the member's id
is present, and else if the sponsor's is not, and then the arena is as it was; in all other cases
the member is placed below the first node with the sponsor's id. -/
theorem Reached.place_outcome (ha : a.Reached) (sponsorId : String) (member : Member)
    (shape : TreeType) :
    (a.Present member.id →
        a.place sponsorId member shape = (.error (.duplicateNode member.id), a)) ∧
      (¬ a.Present member.id → ¬ a.Present sponsorId →
        a.place sponsorId member shape = (.error (.nodeNotFound sponsorId), a)) ∧
      (¬ a.Present member.id → a.Present sponsorId →
        ∃ sponsor p told b, a.find? sponsorId = some sponsor ∧ a.Carries sponsor sponsorId ∧
          a.place sponsorId member shape = (.ok told, b) ∧
          a.Placed b sponsor p member shape told) :=
  ⟨fun hmember => ha.sound.place_of_present hmember sponsorId shape,
    fun hmember hsponsor => ha.sound.place_of_absent hmember hsponsor shape,
    fun hmember hsponsor => ha.sound.exists_placed hmember hsponsor shape⟩

/-- Below a second top: an id that is present there, a sponsor that is only below the first one, and
a member who has that sponsor's id. -/
theorem place_outcome_tangled :
    let bare (id : String) : Member := (Record.bare id none none).member
    let arena := after tangled
    let told : Placement := ⟨7, "f", some .left, 1, false⟩
    arena.place "f" (bare "g") .binary = (.error (.duplicateNode "g"), arena) ∧
      arena.place "a" (bare "h") .binary = (.error (.nodeNotFound "a"), arena) ∧
      ∃ b, arena.place "f" (bare "a") .binary = (.ok told, b) ∧
        arena.Placed b 5 5 (bare "a") .binary told := by
  intro bare arena told
  have hreached : arena.Reached := reached_after tangled
  have hpresent (id : String) : (arena.find? id).isSome ↔ arena.Present id := by
    rw [Option.isSome_iff_exists, hreached.sound.exists_find?_iff]
  have hg : arena.Present "g" := (hpresent "g").mp (by decide +kernel)
  have hf : arena.Present "f" := (hpresent "f").mp (by decide +kernel)
  have ha : ¬ arena.Present "a" := (hpresent "a").not.mp (by decide +kernel)
  have hh : ¬ arena.Present "h" := (hpresent "h").not.mp (by decide +kernel)
  obtain ⟨hduplicate, -, -⟩ := hreached.place_outcome "f" (bare "g") .binary
  obtain ⟨-, hunknown, -⟩ := hreached.place_outcome "a" (bare "h") .binary
  obtain ⟨-, -, hplaces⟩ := hreached.place_outcome "f" (bare "a") .binary
  obtain ⟨sponsor, p, told', b, hfind, -, hplace, hplaced⟩ := hplaces ha hf
  have hsponsor : arena.find? "f" = some 5 := by decide +kernel
  obtain rfl : sponsor = 5 := Option.some.inj (hfind.symm.trans hsponsor)
  have htold : (arena.place "f" (bare "a") .binary).1 = .ok told := rfl
  obtain rfl : told' = told := Except.ok.inj ((congrArg Prod.fst hplace).symm.trans htold)
  obtain rfl : p = 5 := by_contra fun hne => nomatch hplaced.spillover.mpr hne
  exact ⟨hduplicate hg, hunknown hh ha, b, hplace, hplaced⟩

end Downline.Arena
