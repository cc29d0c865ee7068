import Downline.Proofs.Record.Kin
import Downline.Proofs.Record.Survey
import Downline.Proofs.Arena.Preorder

/-!
# Growing an arena from records

The arena is grown along the walk through the records that hang below the root. `Growing` says how
it stands while places are still pending: the node of each record seated so far is right, and a
node's children together with the places that wait for it are the records below its own. A step
keeps this (`Growing.step`), so a whole run does (`Growing.run`).

Records with distinct ids make a forest, so the run is over when as many steps have been made as
there are records: nothing is pending in the arena that is grown (`exists_grown`).
-/

namespace Downline.Record

/-! ## Pending places -/

/-- The places that wait for a node, which is to be their parent. -/
def waiting (pending : List (Nat × Option Nat)) (h : Nat) : List Nat :=
  (pending.filter fun e => e.2 = some h).map Prod.fst

theorem waiting_append (pending pending' : List (Nat × Option Nat)) (h : Nat) :
    waiting (pending ++ pending') h = waiting pending h ++ waiting pending' h := by
  simp only [waiting, List.filter_append, List.map_append]

theorem waiting_cons_self (i h : Nat) (pending : List (Nat × Option Nat)) :
    waiting ((i, some h) :: pending) h = i :: waiting pending h := by
  simp [waiting]

theorem waiting_cons_of_ne {h k : Nat} (hne : h ≠ k) (i : Nat) (pending : List (Nat × Option Nat)) :
    waiting ((i, some h) :: pending) k = waiting pending k := by
  simp [waiting, hne]

theorem waiting_eq_nil {pending : List (Nat × Option Nat)} {h : Nat}
    (hnone : ∀ e ∈ pending, e.2 ≠ some h) : waiting pending h = [] := by
  rw [waiting, List.map_eq_nil_iff, List.filter_eq_nil_iff]
  exact fun e he hh => hnone e he (of_decide_eq_true hh)

theorem waiting_family (family : List Nat) (h : Nat) :
    waiting (family.map (·, some h)) h = family := by
  rw [waiting, List.filter_eq_self.mpr, List.map_map]
  · exact List.map_id family
  · intro e he
    obtain ⟨i, -, rfl⟩ := List.mem_map.mp he
    exact decide_eq_true rfl

/-! ## The arena while places are pending -/

section Growing

variable {rs : List Record} {families : Families}

/-- A link suits the record at a place: a record without a parent is at the top, any other below
the node of the record that it names. `seated` lists the places of the records by handle. -/
def Suits (rs : List Record) (seated : List Nat) (i : Nat) : Link → Prop
  | .top => ∃ r, rs[i]? = some r ∧ r.parentId = none
  | .below p => ∃ j, seated[p]? = some j ∧ i ∈ kin rs j
  | .adrift _ => False

theorem seated_append {seated : List Nat} {h i : Nat} (hi : seated[h]? = some i)
    (later : List Nat) : (seated ++ later)[h]? = some i := by
  rwa [List.getElem?_append_left (List.getElem?_eq_some_iff.mp hi).1]

theorem Suits.append {seated : List Nat} {i : Nat} {link : Link} (h : Suits rs seated i link)
    (later : List Nat) : Suits rs (seated ++ later) i link := by
  cases link with
  | top => exact h
  | below p =>
    obtain ⟨j, hj, hi⟩ := h
    exact ⟨j, seated_append hj later, hi⟩
  | adrift p => exact h

theorem Suits.cases {seated : List Nat} {i : Nat} {link : Link} {r : Record}
    (h : Suits rs seated i link) (hr : rs[i]? = some r) :
    (link = .top ∧ r.parentId = none) ∨
      ∃ p j q, link = .below p ∧ seated[p]? = some j ∧ rs[j]? = some q ∧
        r.parentId = some q.id := by
  cases link with
  | top =>
    obtain ⟨r', hr', hnone⟩ := h
    obtain rfl : r = r' := Option.some.inj (hr.symm.trans hr')
    exact .inl ⟨rfl, hnone⟩
  | below p =>
    obtain ⟨j, hj, hi⟩ := h
    obtain ⟨q, r', hq, hr', hparent⟩ := mem_kin_iff.mp hi
    obtain rfl : r = r' := Option.some.inj (hr.symm.trans hr')
    exact .inr ⟨p, j, q, rfl, hj, hq, hparent⟩
  | adrift p => exact h.elim

/-- An arena that is being grown: the records at `seated` have their nodes, in this order, and
those at `pending` come next. -/
structure Growing (rs : List Record) (seated : List Nat) (pending : List (Nat × Option Nat))
    (a : Arena) : Prop where
  sound : a.Sound
  root : a.root = some 0
  size : a.size = seated.length
  /-- A node carries its record's member and leg. -/
  carried : ∀ {h i n}, seated[h]? = some i → a.node? h = some n →
    ∃ r, rs[i]? = some r ∧ n.member = r.member ∧ n.leg = r.leg
  linked : ∀ {h i n}, seated[h]? = some i → a.node? h = some n → Suits rs seated i n.link
  /-- The children seated so far and those that wait are the records below. -/
  children : ∀ {h i n}, seated[h]? = some i → a.node? h = some n →
    n.children.map (seated[·]?) ++ (waiting pending h).map some = (kin rs i).map some
  due : ∀ e ∈ pending, ∃ p, e.2 = some p ∧ Suits rs seated e.1 (.below p)

namespace Growing

variable {seated : List Nat} {pending : List (Nat × Option Nat)} {a : Arena}

theorem exists_node? (hg : Growing rs seated pending a) {h i : Nat} (hi : seated[h]? = some i) :
    ∃ n, a.node? h = some n := by
  refine Arena.exists_node? ?_
  rw [hg.size]
  exact (List.getElem?_eq_some_iff.mp hi).1

theorem exists_seated (hg : Growing rs seated pending a) {h : Nat} {n : ArenaNode}
    (hn : a.node? h = some n) : ∃ i, seated[h]? = some i := by
  have hlt := Arena.lt_size_of_node? hn
  rw [hg.size] at hlt
  exact ⟨_, List.getElem?_eq_getElem hlt⟩

/-- Pending places wait for nodes that are there, so none of them for the one that comes next. -/
theorem not_due_size (hg : Growing rs seated pending a) {e : Nat × Option Nat}
    (he : e ∈ pending) : e.2 ≠ some a.size := by
  intro heq
  obtain ⟨k, hk, j, hj, -⟩ := hg.due e he
  obtain rfl : k = a.size := Option.some.inj (hk.symm.trans heq)
  exact absurd (List.getElem?_eq_some_iff.mp hj).1 (by rw [hg.size]; exact Nat.lt_irrefl _)

/-- When a place gets its node, the place that waited in front is the last child instead, and the
children of other nodes stay what they were. -/
theorem children_adopting {i p : Nat} {rest : List (Nat × Option Nat)}
    (hg : Growing rs seated ((i, some p) :: rest) a) {h j : Nat} {n : ArenaNode}
    (hj : seated[h]? = some j) (hn : a.node? h = some n) :
    (a.adopting (some p) h n).children.map ((seated ++ [i])[·]?) ++ (waiting rest h).map some =
      (kin rs j).map some := by
  have hsame : n.children.map ((seated ++ [i])[·]?) = n.children.map (seated[·]?) := by
    refine List.map_congr_left fun c hc => ?_
    obtain ⟨m, hm, -⟩ := hg.sound.linked hn hc
    exact List.getElem?_append_left (hg.size ▸ Arena.lt_size_of_node? hm)
  rw [← hg.children hj hn]
  by_cases hp : p = h
  · subst hp
    rw [Arena.adopting_self, List.map_append, hsame, waiting_cons_self, List.map_singleton,
      hg.size, List.getElem?_concat_length, List.append_assoc, List.map_cons,
      List.singleton_append]
  · rw [Arena.adopting_of_ne a (hp ∘ Option.some.inj), id_eq, hsame, waiting_cons_of_ne hp]

end Growing

/-- The arena with the root alone, which all records below the root wait for. -/
theorem growing_root {i : Nat} {r : Record} (hr : rs[i]? = some r) (htop : r.parentId = none) :
    Growing rs [i] ((kin rs i).map (·, some 0)) (Arena.empty.insert r.member none r.leg).1 := by
  have hlone : ∀ {h j n}, [i][h]? = some j →
      (Arena.empty.insert r.member none r.leg).1.node? h = some n →
      h = 0 ∧ j = i ∧ n = ⟨r.member, .top, [], r.leg, 0⟩ := by
    intro h j n hj hn
    rcases Arena.node?_insert_cases hn with ⟨rfl, rfl⟩ | ⟨old, hold, -⟩
    · exact ⟨rfl, (Option.some.inj hj).symm, rfl⟩
    · cases hold
  refine ⟨Arena.sound_empty.insert r.member none r.leg, rfl, rfl, ?carried, ?linked, ?children,
    ?due⟩
  case carried =>
    intro h j n hj hn
    obtain ⟨rfl, rfl, rfl⟩ := hlone hj hn
    exact ⟨r, hr, rfl, rfl⟩
  case linked =>
    intro h j n hj hn
    obtain ⟨rfl, rfl, rfl⟩ := hlone hj hn
    exact ⟨r, hr, htop⟩
  case children =>
    intro h j n hj hn
    obtain ⟨rfl, rfl, rfl⟩ := hlone hj hn
    rw [waiting_family, List.map_nil, List.nil_append]
  case due =>
    intro e he
    obtain ⟨j, hj, rfl⟩ := List.mem_map.mp he
    exact ⟨0, rfl, i, rfl, hj⟩

theorem Growing.node_cases {seated : List Nat} {rest : List (Nat × Option Nat)} {a : Arena}
    {i p : Nat} {r : Record} (hg : Growing rs seated ((i, some p) :: rest) a) {h j : Nat}
    {n : ArenaNode} (hj : (seated ++ [i])[h]? = some j)
    (hn : (a.insert r.member (some p) r.leg).1.node? h = some n) :
    (h = a.size ∧ j = i ∧ n = a.newcomer r.member (some p) r.leg) ∨
      ∃ old, seated[h]? = some j ∧ a.node? h = some old ∧ n = a.adopting (some p) h old := by
  rcases Arena.node?_insert_cases hn with ⟨rfl, rfl⟩ | ⟨old, hold, rfl⟩
  · rw [hg.size, List.getElem?_concat_length] at hj
    exact .inl ⟨rfl, (Option.some.inj hj).symm, rfl⟩
  · have hlt := Arena.lt_size_of_node? hold
    rw [hg.size] at hlt
    rw [List.getElem?_append_left hlt] at hj
    exact .inr ⟨old, hj, hold, rfl⟩

/-- **A step keeps a growing arena right.** The first pending place gets its node, and the records
below it wait for that node. -/
theorem Growing.step {seated : List Nat} {rest : List (Nat × Option Nat)} {a : Arena}
    {i : Nat} {parent : Option Nat} {r : Record}
    (hg : Growing rs seated ((i, parent) :: rest) a) (hr : rs[i]? = some r) :
    Growing rs (seated ++ [i]) ((kin rs i).map (·, some a.size) ++ rest)
      (a.insert r.member parent r.leg).1 := by
  obtain ⟨p, rfl, q, hq, hi⟩ := hg.due _ List.mem_cons_self
  obtain ⟨above, habove⟩ := hg.exists_node? hq
  have hnewcomer := Arena.newcomer_below r.member r.leg habove
  refine ⟨hg.sound.insert r.member (some p) r.leg, ?root, ?size, ?carried, ?linked, ?children, ?due⟩
  case root =>
    rw [Arena.root_insert, if_neg nofun]
    exact hg.root
  case size => rw [Arena.size_insert, hg.size, List.length_append, List.length_singleton]
  case carried =>
    intro h j n hj hn
    rcases hg.node_cases hj hn with ⟨rfl, rfl, rfl⟩ | ⟨old, hold, hnode, rfl⟩
    · rw [hnewcomer]
      exact ⟨r, hr, rfl, rfl⟩
    · rw [Arena.member_adopting, Arena.leg_adopting]
      exact hg.carried hold hnode
  case linked =>
    intro h j n hj hn
    rcases hg.node_cases hj hn with ⟨rfl, rfl, rfl⟩ | ⟨old, hold, hnode, rfl⟩
    · rw [hnewcomer]
      exact ⟨q, seated_append hq [_], hi⟩
    · rw [Arena.link_adopting]
      exact (hg.linked hold hnode).append [i]
  case children =>
    intro h j n hj hn
    rw [waiting_append]
    rcases hg.node_cases hj hn with ⟨rfl, rfl, rfl⟩ | ⟨old, hold, hnode, rfl⟩
    · have hrest : waiting rest a.size = [] :=
        waiting_eq_nil fun e he => hg.not_due_size (List.mem_cons_of_mem _ he)
      rw [hnewcomer, waiting_family, hrest, List.append_nil, List.map_nil, List.nil_append]
    · have hfamily : waiting ((kin rs i).map (·, some a.size)) h = [] := by
        refine waiting_eq_nil fun e he heq => ?_
        obtain ⟨k, -, rfl⟩ := List.mem_map.mp he
        exact Nat.ne_of_gt (Arena.lt_size_of_node? hnode) (Option.some.inj heq)
      rw [hfamily, List.nil_append]
      exact hg.children_adopting hold hnode
  case due =>
    intro e he
    rcases List.mem_append.mp he with he | he
    · obtain ⟨j, hj, rfl⟩ := List.mem_map.mp he
      refine ⟨a.size, rfl, i, ?_, hj⟩
      rw [hg.size, List.getElem?_concat_length]
    · obtain ⟨k, hk, hsuits⟩ := hg.due e (List.mem_cons_of_mem _ he)
      exact ⟨k, hk, hsuits.append [i]⟩

/-! ## The run -/

variable (hfamilies : ∀ p, families.of p = rs.findIdxs fun r => r.parentId = some p)

include hfamilies

/-- With the families of the records, a step puts in front the places of the records below. -/
theorem grow_cons {i : Nat} {r : Record} (hr : rs[i]? = some r) (fuel : Nat)
    (parent : Option Nat) (rest : List (Nat × Option Nat)) (a : Arena) :
    grow rs families (fuel + 1) ((i, parent) :: rest) a =
      grow rs families fuel ((kin rs i).map (·, some a.size) ++ rest)
        (a.insert r.member parent r.leg).1 := by
  simp only [grow, hr, Arena.insert_handle, hfamilies, kin_eq hr]

/-- A run keeps a growing arena right and seats what the walk through the records visits. -/
theorem Growing.run {seated : List Nat} {pending : List (Nat × Option Nat)} {a : Arena}
    (hg : Growing rs seated pending a) (fuel : Nat) :
    ∃ pending', pending'.map Prod.fst = Walk.leftover (kin rs) fuel (pending.map Prod.fst) ∧
      Growing rs (seated ++ Walk.visits (kin rs) fuel (pending.map Prod.fst)) pending'
        (grow rs families fuel pending a) := by
  induction fuel generalizing seated pending a with
  | zero => exact ⟨pending, rfl, by rwa [Walk.visits, List.append_nil]⟩
  | succ fuel ih =>
    cases pending with
    | nil => exact ⟨[], rfl, by rwa [List.map_nil, Walk.visits, List.append_nil]⟩
    | cons e rest =>
      obtain ⟨i, parent⟩ := e
      obtain ⟨p, -, q, -, hi⟩ := hg.due _ List.mem_cons_self
      obtain ⟨r, hr⟩ : ∃ r, rs[i]? = some r := ⟨_, List.getElem?_eq_getElem (kin_lt hi)⟩
      have hplaces : ((kin rs i).map (·, some a.size) ++ rest).map Prod.fst =
          kin rs i ++ rest.map Prod.fst := by
        rw [List.map_append, List.map_map]
        exact congrArg (· ++ _) (List.map_id _)
      obtain ⟨pending', hleft, hgrown⟩ := ih (hg.step hr)
      rw [hplaces] at hleft hgrown
      rw [List.append_assoc] at hgrown
      rw [grow_cons hfamilies hr]
      exact ⟨pending', hleft, hgrown⟩

end Growing

/-! ## What is reached -/

/-- The places that growing from a place reaches, in the order in which they get their nodes. -/
def reached (rs : List Record) (i : Nat) : List Nat := Walk.visits (kin rs) rs.length [i]

theorem lt_of_mem_reached {rs : List Record} {i j : Nat} (hi : i < rs.length)
    (hj : j ∈ reached rs i) : j < rs.length := by
  refine Walk.induction_on (P := (· < rs.length)) ?_ ?_ j (List.mem_append_left _ hj)
  · intro k hk
    exact List.mem_singleton.mp hk ▸ hi
  · exact fun _ _ k hk => kin_lt hk

section Reached

variable {rs : List Record} {i : Nat} (hdistinct : (rs.map id).Nodup) (htop : Top rs i)

include htop

/-- Nothing is above a record without a parent, so a walk may start there. -/
theorem fresh_top : Walk.Fresh (kin rs) [] [i] := by
  refine Walk.fresh_start (List.nodup_singleton i) ?_
  intro j hj q hmem
  obtain rfl := List.mem_singleton.mp hj
  obtain ⟨r, hr, hnone⟩ := htop.parentless
  obtain ⟨_, r', -, hr', hparent⟩ := mem_kin_iff.mp hmem
  obtain rfl : r = r' := Option.some.inj (hr.symm.trans hr')
  cases hnone.symm.trans hparent

include hdistinct

theorem leftover_top : Walk.leftover (kin rs) rs.length [i] = [] := by
  refine (fresh_top htop).leftover_eq_nil (kin_forest hdistinct) (List.range rs.length)
    (List.nil_subset _) ?_ ?_ ?_
  · intro j hj
    obtain rfl := List.mem_singleton.mp hj
    exact List.mem_range.mpr htop.lt_length
  · exact fun _ _ k hk => List.mem_range.mpr (kin_lt hk)
  · simp only [List.length_range, List.length_nil, Nat.zero_add, Nat.le_refl]

theorem nodup_reached : (reached rs i).Nodup :=
  (List.nodup_append.mp ((fresh_top htop).run (kin_forest hdistinct) rs.length).nodup).1

/-- Exactly those records are reached whose parent links lead to the top. -/
theorem mem_reached_iff {j : Nat} {q : Record} (hq : rs[j]? = some q) :
    j ∈ reached rs i ↔ ReachesTop rs q := by
  have hdone := leftover_top hdistinct htop
  constructor
  · intro hj
    suffices hall : ∃ s, rs[j]? = some s ∧ ReachesTop rs s by
      obtain ⟨s, hs, hreach⟩ := hall
      obtain rfl : q = s := Option.some.inj (hq.symm.trans hs)
      exact hreach
    refine Walk.induction_on (P := fun k => ∃ s, rs[k]? = some s ∧ ReachesTop rs s) ?_ ?_ j
      (List.mem_append_left _ hj)
    · intro k hk
      obtain rfl := List.mem_singleton.mp hk
      obtain ⟨r, hr, hnone⟩ := htop.parentless
      exact ⟨r, hr, 0, .top hnone⟩
    · rintro k ⟨s, hs, links, hclimbs⟩ c hc
      obtain ⟨s', t, hs', ht, hparent⟩ := mem_kin_iff.mp hc
      obtain rfl : s = s' := Option.some.inj (hs.symm.trans hs')
      exact ⟨t, ht, links + 1, .up hparent (List.mem_of_getElem? hs) hclimbs⟩
  · rintro ⟨links, hclimbs⟩
    induction hclimbs generalizing j with
    | top hnone =>
      have hstart := Walk.pending_subset (kin rs) rs.length [i] (List.mem_singleton_self i)
      rw [hdone, List.append_nil] at hstart
      exact htop.unique hq hnone ▸ hstart
    | up hparent hmem _ ih =>
      obtain ⟨k, hk⟩ := List.mem_iff_getElem?.mp hmem
      exact Walk.next_subset_visits hdone (ih hk) (mem_kin_iff.mpr ⟨_, _, hk, hq, hparent⟩)

/-- If parent links lead to the top from every record, every place is reached. -/
theorem reached_perm (hall : ∀ r ∈ rs, ReachesTop rs r) :
    (reached rs i).Perm (List.range rs.length) := by
  refine (List.perm_ext_iff_of_nodup (nodup_reached hdistinct htop) List.nodup_range).mpr ?_
  intro j
  rw [List.mem_range]
  refine ⟨lt_of_mem_reached htop.lt_length, fun hlt => ?_⟩
  exact (mem_reached_iff hdistinct htop (List.getElem?_eq_getElem hlt)).mpr
    (hall _ (List.getElem_mem hlt))

/-- **The arena that is grown from the top** is right, and nothing is pending. -/
theorem growing_reached {families : Families}
    (hfamilies : ∀ p, families.of p = rs.findIdxs fun q => q.parentId = some p) :
    Growing rs (reached rs i) [] (grow rs families rs.length [(i, none)] .empty) := by
  have hdone := leftover_top hdistinct htop
  obtain ⟨r, hr, hnone⟩ := htop.parentless
  rw [reached]
  obtain ⟨fuel, hfuel⟩ : ∃ fuel, rs.length = fuel + 1 :=
    Nat.exists_eq_add_one.mpr (Nat.zero_lt_of_lt htop.lt_length)
  rw [hfuel] at hdone ⊢
  obtain ⟨pending, hleft, hgrown⟩ := (growing_root hr hnone).run hfamilies fuel
  have hplaces : ((kin rs i).map (·, some (0 : Nat))).map Prod.fst = kin rs i ++ [] := by
    rw [List.map_map, List.append_nil]
    exact List.map_id _
  rw [hplaces] at hleft hgrown
  obtain rfl : pending = [] := List.map_eq_nil_iff.mp (hleft.trans hdone)
  rw [grow_cons hfamilies hr, List.append_nil]
  exact hgrown

end Reached

end Downline.Record
