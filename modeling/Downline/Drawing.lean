import Downline.Organization.Basic

/-!
# Drawings of a tree

A drawing is a tree of labels. `Drawing.assemble?` builds one from its labels in post-order, each
with the number of its children: the children of a node are the subtrees finished last.
`Drawing.render` writes a drawing as text, one line per label, with branches in front:

    Kim Minji (root) Diamond [active]
    ├── Lee Jun (a) Gold [active]
    │   └── Park Hana (b) [hold]
    └── Choi Yuna (c) Silver [warning]

A label is written as it is, also when it holds a line break.
-/

namespace Downline

/-- A tree of labels. -/
inductive Drawing where
  | node (label : String) (children : List Drawing)
  deriving Repr

namespace Drawing

def label : Drawing → String
  | node l _ => l

def children : Drawing → List Drawing
  | node _ ds => ds

/-- Adds one finished node to the finished subtrees, latest first: its children are the `count`
latest ones, or all if there are fewer. -/
def finish (built : List Drawing) (label : String) (count : Nat) : List Drawing :=
  node label (built.take count).reverse :: built.drop count

/-- The drawing whose labels and child counts are listed in post-order; `none` for an empty
list. -/
def assemble? (postorder : List (String × Nat)) : Option Drawing :=
  (postorder.foldl (fun built (label, count) => finish built label count) []).head?

mutual

/-- The lines below a label: `indent` stands in front of every branch. -/
def renderBelow (indent : String) : List Drawing → String
  | [] => ""
  | [d] => indent ++ "└── " ++ renderNode (indent ++ "    ") d
  | d :: ds => indent ++ "├── " ++ renderNode (indent ++ "│   ") d ++ renderBelow indent ds

/-- A label and the lines below it. -/
def renderNode (indent : String) : Drawing → String
  | node label ds => label ++ "\n" ++ renderBelow indent ds

end

/-- The text of a drawing, each line ended. -/
def render (d : Drawing) : String := renderNode "" d

end Drawing

namespace Organization

/-- Steps that pending nodes still take: two for each member below and including an unmet node, one
for a node that waits behind its children. -/
def pendingSteps : List (Organization × Bool) → Nat
  | [] => 0
  | (_, true) :: rest => pendingSteps rest + 1
  | (o, false) :: rest => pendingSteps rest + 2 * o.size

theorem pendingSteps_append (ps qs : List (Organization × Bool)) :
    pendingSteps (ps ++ qs) = pendingSteps ps + pendingSteps qs := by
  induction ps with
  | nil => simp [pendingSteps]
  | cons p ps ih =>
    obtain ⟨o, met⟩ := p
    cases met <;> simp only [List.cons_append, pendingSteps, ih] <;> omega

theorem pendingSteps_unmet (os : List Organization) :
    pendingSteps (os.map (·, false)) = 2 * sizeAll os := by
  induction os with
  | nil => rfl
  | cons o os ih =>
    simp only [List.map_cons, pendingSteps, sizeAll_cons, ih]
    omega

/-- Walks the pending nodes: a node met first waits behind its children, a node met again is
finished. -/
def postorderPending (pending : List (Organization × Bool)) : List Organization :=
  match pending with
  | [] => []
  | (o, true) :: rest => o :: postorderPending rest
  | (o, false) :: rest =>
    let unmet := o.children.map (·, false)
    postorderPending (unmet ++ (o, true) :: rest)
termination_by pendingSteps pending
decreasing_by
  · simp [pendingSteps]
  · have unmetSteps := pendingSteps_unmet o.children
    cases o with
    | node m cs =>
      simp only [children_node] at unmetSteps
      simp only [children_node, pendingSteps_append, unmetSteps, pendingSteps, size_node]
      omega

/-- The nodes from the bottom up, each after the nodes below it. -/
def postorder (o : Organization) : List Organization := postorderPending [(o, false)]

/-- The drawing of an organization, labelled member by member. -/
def drawing (o : Organization) : Drawing :=
  (Drawing.assemble? (o.postorder.map fun n => (n.member.label, n.children.length))).getD
    (.node "" [])

end Organization

end Downline
