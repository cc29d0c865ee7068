import Downline.Drawing
import Downline.Proofs.Organization.Tree

/-!
# Drawings put together from the bottom up

A drawing is told in full by its labels in post-order, each with the number of its children.
`Drawing.postorder` lists them, and assembling that list gives the drawing again: whenever the turn
of a label comes, the drawings of its children are finished and are the latest ones, and at the end
one drawing is left (`Drawing.assembled_postorder`). Lists that are the post-order of no drawing are
assembled as well, into something: a label whose count is off takes what is there.

The nodes of an organization are collected by a walk with a stack of its own, and what it collects
is the post-order of the organization's `sketch`, label by label. So the drawing of an organization
is its sketch (`drawing_eq_sketch`).
-/

namespace Downline

namespace Drawing

@[elab_as_elim]
theorem ind {P : Drawing → Prop} (node : ∀ l ds, (∀ d ∈ ds, P d) → P (.node l ds)) : ∀ d, P d
  | .node l ds => node l ds fun d _ => ind node d

mutual

/-- The labels from the bottom up, each with the number of its children. -/
def postorder : Drawing → List (String × Nat)
  | node l ds => postorderAll ds ++ [(l, ds.length)]

def postorderAll : List Drawing → List (String × Nat)
  | [] => []
  | d :: ds => d.postorder ++ postorderAll ds

end

@[simp] theorem postorder_node (l : String) (ds : List Drawing) :
    (node l ds).postorder = ds.flatMap postorder ++ [(l, ds.length)] := by
  have hall : postorderAll ds = ds.flatMap postorder := by
    induction ds with
    | nil => rw [postorderAll, List.flatMap_nil]
    | cons d ds ih => rw [postorderAll, ih, List.flatMap_cons]
  rw [postorder, hall]

mutual

/-- A drawing without its labels. -/
def shape : Drawing → Drawing
  | node _ ds => node "" (shapeAll ds)

def shapeAll : List Drawing → List Drawing
  | [] => []
  | d :: ds => d.shape :: shapeAll ds

end

@[simp] theorem shape_node (l : String) (ds : List Drawing) :
    (node l ds).shape = node "" (ds.map shape) := by
  have hall : shapeAll ds = ds.map shape := by
    induction ds with
    | nil => rw [shapeAll, List.map_nil]
    | cons d ds ih => rw [shapeAll, ih, List.map_cons]
  rw [shape, hall]

/-! ## Assembling -/

/-- The finished drawings after more of a post-order, latest first. -/
def finishAll (built : List Drawing) (postorder : List (String × Nat)) : List Drawing :=
  postorder.foldl (fun built (label, count) => finish built label count) built

theorem assemble?_eq (postorder : List (String × Nat)) :
    assemble? postorder = (finishAll [] postorder).head? := rfl

/-- A label takes as many of the finished drawings as it counts, in the order in which they were
finished. -/
theorem finish_append (kids built : List Drawing) (label : String) :
    finish (kids.reverse ++ built) label kids.length = node label kids :: built := by
  have hlen : kids.reverse.length = kids.length := List.length_reverse
  rw [finish, List.take_left' hlen, List.drop_left' hlen, List.reverse_reverse]

theorem finishAll_cons (kids built : List Drawing) (label : String) (rest : List (String × Nat)) :
    finishAll (kids.reverse ++ built) ((label, kids.length) :: rest) =
      finishAll (node label kids :: built) rest :=
  congrArg (finishAll · rest) (finish_append kids built label)

/-- A part of a post-order, with the finished drawings before and after it, latest first. When the
turn of a label comes, as many as it counts are there. -/
inductive Assembles : List Drawing → List (String × Nat) → List Drawing → Prop
  | nil {built : List Drawing} : Assembles built [] built
  | cons {label : String} {kids built built' : List Drawing} {rest : List (String × Nat)} :
      Assembles (node label kids :: built) rest built' →
      Assembles (kids.reverse ++ built) ((label, kids.length) :: rest) built'

namespace Assembles

variable {built built' built'' : List Drawing} {part part' : List (String × Nat)}

theorem append (h : Assembles built part built') (h' : Assembles built' part' built'') :
    Assembles built (part ++ part') built'' := by
  induction h with
  | nil => exact h'
  | cons _ ih => exact .cons (ih h')

theorem finishAll_eq (h : Assembles built part built') : finishAll built part = built' := by
  induction h with
  | nil => rfl
  | cons _ ih => rw [finishAll_cons, ih]

theorem count_le {before after : List (String × Nat)} {label : String} {count : Nat}
    (h : Assembles built (before ++ (label, count) :: after) built') :
    count ≤ (finishAll built before).length := by
  generalize hpart : before ++ (label, count) :: after = part at h
  induction h generalizing before with
  | nil => simp at hpart
  | @cons _ kids built _ _ _ ih =>
    cases before with
    | nil =>
      cases hpart
      simp [finishAll]
    | cons e before =>
      cases hpart
      rw [finishAll_cons]
      exact ih rfl

end Assembles

/-- The post-order of a drawing puts that drawing on the finished ones. -/
theorem assembles_postorder (d : Drawing) (built : List Drawing) :
    Assembles built d.postorder (d :: built) := by
  induction d using ind generalizing built with
  | node l ds ih =>
    have hrow : ∀ {kids : List Drawing}, kids ⊆ ds → ∀ built,
        Assembles built (kids.flatMap postorder) (kids.reverse ++ built) := by
      intro kids hkids
      induction kids with
      | nil => exact fun _ => .nil
      | cons d kids ihkids =>
        obtain ⟨hd, hkids⟩ := List.cons_subset.mp hkids
        intro built
        rw [List.flatMap_cons, List.reverse_cons, List.append_assoc]
        exact (ih d hd built).append (ihkids hkids (d :: built))
    rw [postorder_node]
    exact (hrow (List.Subset.refl ds) built).append (.cons .nil)

/-- Labels and counts are put together into one drawing: no label counts more drawings than are
finished when its turn comes, and at the end that drawing alone is left. -/
structure Assembled (postorder : List (String × Nat)) (d : Drawing) : Prop where
  enough : ∀ before label count after, postorder = before ++ (label, count) :: after →
    count ≤ (finishAll [] before).length
  left : finishAll [] postorder = [d]

/-- **A drawing is assembled from its post-order.** -/
theorem assembled_postorder (d : Drawing) : Assembled d.postorder d where
  enough := by
    intro before label count after hpostorder
    have h := d.assembles_postorder []
    rw [hpostorder] at h
    exact h.count_le
  left := (d.assembles_postorder []).finishAll_eq

theorem Assembled.assemble?_eq {postorder : List (String × Nat)} {d : Drawing}
    (h : Assembled postorder d) : assemble? postorder = some d := by
  rw [Drawing.assemble?_eq, h.left, List.head?_cons]

end Drawing

namespace Organization

mutual

/-- An organization drawn member by member, along the tree. -/
def sketch : Organization → Drawing
  | node m cs => .node m.label (sketchAll cs)

def sketchAll : List Organization → List Drawing
  | [] => []
  | o :: os => o.sketch :: sketchAll os

end

@[simp] theorem sketch_node (m : Member) (cs : List Organization) :
    (node m cs).sketch = .node m.label (cs.map sketch) := by
  have hall : sketchAll cs = cs.map sketch := by
    induction cs with
    | nil => rw [sketchAll, List.map_nil]
    | cons c cs ih => rw [sketchAll, ih, List.map_cons]
  rw [sketch, hall]

/-- The label of the member at the top, with the number of its children. -/
def labelled (o : Organization) : String × Nat := (o.member.label, o.children.length)

/-- A pending node is dealt with before those behind it, and comes last of all that is below
it. -/
theorem map_postorderPending (o : Organization) (rest : List (Organization × Bool)) :
    (postorderPending ((o, false) :: rest)).map labelled =
      o.sketch.postorder ++ (postorderPending rest).map labelled := by
  induction o using ind generalizing rest with
  | node m cs ih =>
    have hrow : ∀ {os : List Organization}, os ⊆ cs → ∀ rest,
        (postorderPending (os.map (·, false) ++ rest)).map labelled =
          os.flatMap (·.sketch.postorder) ++ (postorderPending rest).map labelled := by
      intro os hos
      induction os with
      | nil => exact fun _ => rfl
      | cons o os ihos =>
        obtain ⟨ho, hos⟩ := List.cons_subset.mp hos
        intro rest
        rw [List.map_cons, List.cons_append, ih o ho, ihos hos, List.flatMap_cons,
          List.append_assoc]
    have hself : (postorderPending ((node m cs, true) :: rest)).map labelled =
        (m.label, cs.length) :: (postorderPending rest).map labelled := by
      rw [postorderPending, List.map_cons]
      rfl
    rw [postorderPending, children_node, hrow (List.Subset.refl cs), hself, sketch_node,
      Drawing.postorder_node, List.flatMap_map, List.length_map, List.append_assoc,
      List.singleton_append]

/-- The walk with a stack lists the labels of the sketch. -/
theorem map_postorder (o : Organization) : o.postorder.map labelled = o.sketch.postorder := by
  have hwalk := o.map_postorderPending []
  rwa [postorderPending, List.map_nil, List.append_nil] at hwalk

theorem assembled_sketch (o : Organization) :
    Drawing.Assembled (o.postorder.map labelled) o.sketch := by
  rw [map_postorder]
  exact o.sketch.assembled_postorder

/-- **The drawing of an organization is its sketch.** -/
theorem drawing_eq_sketch (o : Organization) : o.drawing = o.sketch := by
  have hassembled : Drawing.assemble? (o.postorder.map labelled) = some o.sketch :=
    o.assembled_sketch.assemble?_eq
  exact congrArg (·.getD (.node "" [])) hassembled

end Organization

end Downline
