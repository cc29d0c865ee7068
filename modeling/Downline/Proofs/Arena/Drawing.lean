import Downline.Proofs.Arena.Branches
import Downline.Proofs.Arena.Measures
import Downline.Proofs.Organization.Drawing

/-!
# The drawing of an arena and of its nested tree

An arena is drawn from its second walk, and its nested tree from a walk of its own. Both drawings
are put together by the same routine, which trusts the numbers of children that it is given. They
come out right: each is the branch at the root, drawn node by node, so that every member has one
place, with the members below it in the same order (`drawn_alike`). They differ in one thing, the
leg that the arena puts in front of a member whose node has one.
-/

namespace Downline

/-- What stands in front of a member in the drawing of an arena: the leg of its node, if there is
one. -/
def ArenaNode.mark (n : ArenaNode) : String :=
  match n.leg with
  | none => ""
  | some leg => leg.letter ++ ": "

namespace Arena

theorem nodeLabel_eq (n : ArenaNode) : nodeLabel n = n.mark ++ n.member.label := by
  unfold nodeLabel ArenaNode.mark
  cases n.leg with
  | none => exact String.empty_append.symm
  | some leg => rfl

namespace Branch

/-- A branch drawn node by node. -/
def sketch (label : ArenaNode → String) (b : Branch) : Drawing :=
  b.fold fun _ n ds => .node (label n) ds

@[simp] theorem sketch_node (label : ArenaNode → String) (h : Nat) (n : ArenaNode)
    (bs : List Branch) :
    (node h n bs).sketch label = .node (label n) (bs.map (sketch label)) := fold_node ..

theorem sketch_organization (b : Branch) : b.organization.sketch = b.sketch (·.member.label) := by
  induction b using ind with
  | node h n bs ih =>
    rw [organization_node, Organization.sketch_node, sketch_node, List.map_map]
    exact congrArg _ (List.map_congr_left ih)

/-- Labels do not matter for the shape. -/
theorem shape_sketch (label label' : ArenaNode → String) (b : Branch) :
    (b.sketch label).shape = (b.sketch label').shape := by
  induction b using ind with
  | node h n bs ih =>
    rw [sketch_node, sketch_node, Drawing.shape_node, Drawing.shape_node, List.map_map,
      List.map_map]
    exact congrArg _ (List.map_congr_left ih)

end Branch

variable {a : Arena} {b : Branch}

/-- The nodes from the bottom up are the post-order of the sketch, since a node of the arena has as
many children as there are branches below it. -/
theorem Bears.postorder_sketch (hb : a.Bears b) (label : ArenaNode → String) :
    b.postorder.map (fun (_, n) => (label n, n.children.length)) = (b.sketch label).postorder := by
  induction hb with
  | @node h n bs _ hbs _ ih =>
    have hcount : n.children.length = bs.length := by rw [← hbs, List.length_map]
    rw [Branch.postorder_node, Branch.sketch_node, Drawing.postorder_node, List.map_append,
      List.map_flatMap, List.flatMap_map, List.flatMap_congr ih, List.length_map, ← hcount,
      List.map_singleton]

/-- The drawing of an arena and that of a nested tree are two drawings of one branch. -/
structure DrawnAlike (a : Arena) (o : Organization) (b : Branch) : Prop where
  /-- The branch holds each node at or below the root once. -/
  once : (b.preorder.map Prod.fst).Nodup
  whole : ∀ h, h ∈ b.preorder.map Prod.fst ↔ a.Rooted h
  /-- Both drawings are the branch, node by node. -/
  arena : a.drawing = b.sketch fun n => n.mark ++ n.member.label
  nested : o.drawing = b.sketch (·.member.label)
  shape : a.drawing.shape = o.drawing.shape
  /-- The walk that the arena is drawn from is over: more steps meet nothing more. -/
  ended : ∀ fuel, 2 * a.size ≤ fuel →
    a.postorderFrom fuel (a.root.toList.map (·, false)) = a.postorder
  /-- Neither list of labels ever counts more drawings than are finished, and one is left. -/
  arenaAssembled : Drawing.Assembled
    (a.postorder.map fun (_, n) => (nodeLabel n, n.children.length)) a.drawing
  nestedAssembled : Drawing.Assembled
    (o.postorder.map fun p => (p.member.label, p.children.length)) o.drawing

theorem Sound.drawnAlike (ha : a.Sound) {r : Nat} (hr : a.root = some r) (hb : a.Bears b)
    (hhandle : b.handle = r) : a.DrawnAlike b.organization b := by
  have hpostorder := ha.postorder_eq hr hb hhandle
  have hassembled : Drawing.Assembled
      (a.postorder.map fun (_, n) => (nodeLabel n, n.children.length)) (b.sketch nodeLabel) := by
    rw [hpostorder, hb.postorder_sketch]
    exact Drawing.assembled_postorder _
  have harena : a.drawing = b.sketch nodeLabel := by
    rw [drawing, hassembled.assemble?_eq, Option.getD_some]
  have hnested : b.organization.drawing = b.sketch (·.member.label) := by
    rw [Organization.drawing_eq_sketch, b.sketch_organization]
  have hlabel : nodeLabel = fun n => n.mark ++ n.member.label := funext nodeLabel_eq
  refine ⟨ha.nodup_preorder_branch hr hb hhandle, fun h => ha.mem_preorder_branch_iff hr hb hhandle,
    hlabel ▸ harena, hnested, ?_, ?_, harena ▸ hassembled, ?_⟩
  · rw [harena, hnested]
    exact b.shape_sketch _ _
  · intro fuel hfuel
    rw [ha.postorderFrom_eq hr hb hhandle hfuel, hpostorder]
  · rw [Organization.drawing_eq_sketch]
    exact b.organization.assembled_sketch

/-- **An arena that has a root is drawn as its nested tree is**, but for the legs in front of its
members, whatever calls led to it. -/
theorem Reached.drawn_alike (ha : a.Reached) {r : Nat} (hr : a.root = some r) :
    ∃ b o, a.Bears b ∧ b.handle = r ∧ a.organization? = some o ∧ b.organization = o ∧
      a.DrawnAlike o b := by
  obtain ⟨b, hb, hhandle⟩ := ha.sound.exists_branch_root hr
  refine ⟨b, b.organization, hb, hhandle, ?_, rfl, ha.sound.drawnAlike hr hb hhandle⟩
  exact ha.sound.organization?_eq_some hr (hhandle ▸ hb.shows)

theorem drawn_alike_replanted :
    ∃ b o, (after replanted).Bears b ∧ b.handle = 2 ∧ (after replanted).organization? = some o ∧
      (after replanted).DrawnAlike o b ∧
      (after replanted).drawing.render =
        " (c) [active]\n├──  (d) [active]\n│   └──  (g) [active]\n├── L:  (f) [active]\n" ++
          "└── R:  (h) [active]\n    └──  (a) [active]\n" ∧
      o.drawing.render =
        " (c) [active]\n├──  (d) [active]\n│   └──  (g) [active]\n├──  (f) [active]\n" ++
          "└──  (h) [active]\n    └──  (a) [active]\n" := by
  have hroot : (after replanted).root = some 2 := by decide +kernel
  obtain ⟨b, o, hb, hhandle, htree, -, halike⟩ := (reached_after replanted).drawn_alike hroot
  refine ⟨b, o, hb, hhandle, htree, halike, by decide +kernel, ?_⟩
  have hrender : ((after replanted).organization?.map fun o => o.sketch.render) = some
      (" (c) [active]\n├──  (d) [active]\n│   └──  (g) [active]\n├──  (f) [active]\n" ++
        "└──  (h) [active]\n    └──  (a) [active]\n") := by decide +kernel
  rw [htree, Option.map_some] at hrender
  rw [o.drawing_eq_sketch]
  exact Option.some.inj hrender

end Arena

end Downline
