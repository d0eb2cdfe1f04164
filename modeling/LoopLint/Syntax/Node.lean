import LoopLint.Syntax.Tree

/-!
# Nodes of a syntax tree

A node is a tree together with its surroundings, so that its parent can be asked for as well as its
children.  The surroundings are a list of frames, from the parent up to the root; a frame holds what
is known of an ancestor and the trees left and right of the way down.

Going down makes the tree smaller (`sizeOf_focus_lt_of_mem_children` and its companions), which is
why every walk below ends.
-/

namespace LoopLint

/-- An ancestor, without the subtree that the way down leads to.  The trees on the left are listed
from the nearest to the farthest. -/
structure Frame where
  label : Label
  left : List Tree
  right : List Tree
deriving Repr

/-- A node of a syntax tree: the tree below it, and what is above it. -/
structure Node where
  focus : Tree
  above : List Frame
deriving Repr

/-- The whole tree of an ancestor, with the subtree put back. -/
def Frame.plug (f : Frame) (t : Tree) : Tree :=
  .node f.label (f.left.reverseAux (t :: f.right))

namespace Node

/-- The root of a tree, as a node. -/
def ofTree (t : Tree) : Node :=
  ⟨t, []⟩

/-- What is known of the node. -/
def label (n : Node) : Label := n.focus.label

/-- What the node is. -/
def kind (n : Node) : Kind := n.label.kind

/-- The source text that the node covers. -/
def text (n : Node) : String := n.label.text

/-- The words of the node. -/
def tokens (n : Node) : List String := n.focus.tokens

/-- The way down from the root, as the position among its siblings of each node on the way, the
node's own position first.  Two nodes of one tree with the same address are the same node. -/
def address (n : Node) : List Nat :=
  n.above.map (·.left.length)

/-- The node just above. -/
def parent? (n : Node) : Option Node :=
  match n.above with
  | [] => none
  | f :: fs => some ⟨f.plug n.focus, fs⟩

/-- The nodes for a row of siblings below an ancestor. -/
def siblings (label : Label) (above : List Frame) : List Tree → List Tree → List Node
  | _, [] => []
  | left, t :: right => ⟨t, ⟨label, left, right⟩ :: above⟩ :: siblings label above (t :: left) right

/-- The nodes just below, from left to right. -/
def children (n : Node) : List Node :=
  siblings n.label n.above [] n.focus.children

/-- The children that the grammar has rules for, without comments. -/
def namedChildren (n : Node) : List Node :=
  n.children.filter (fun c => c.label.named && !c.kind.isComment)

/-- The first child that is the given part of the node. -/
def child? (n : Node) (f : Field) : Option Node :=
  n.children.find? (fun c => c.label.field == some f)

/-- Whether the given part of the node is there and has the property. -/
def childIs (n : Node) (f : Field) (p : Node → Bool) : Bool :=
  (n.child? f).any p

/-- Whether some child is of the given kind. -/
def hasChild (n : Node) (k : Kind) : Bool :=
  n.children.any (fun c => c.kind == k)

/-- Whether `n` is the given part of `p`. -/
def isPartOf (n p : Node) (f : Field) : Bool :=
  p.childIs f (fun c => c.address == n.address)

/-- Whether the node is a number written as `value`. -/
def isNumber (n : Node) (value : String) : Bool :=
  n.kind == .number && n.text == value

/-- Whether the node is an identifier with the given name. -/
def isIdentifier (n : Node) (name : String) : Bool :=
  n.kind == .identifier && n.text == name

/-! ### Going down ends -/

/-- The tree of a sibling is one of the row. -/
theorem focus_mem_of_mem_siblings {l : Label} {above : List Frame} {n : Node} :
    ∀ {left ts : List Tree}, n ∈ siblings l above left ts → n.focus ∈ ts
  | _, [], h => by simp [siblings] at h
  | left, t :: ts, h => by
    rcases List.mem_cons.mp h with rfl | h
    · exact List.mem_cons_self
    · exact List.mem_cons_of_mem _ (focus_mem_of_mem_siblings h)

/-- A child's tree is one of the trees below. -/
theorem focus_mem_of_mem_children {n c : Node} (h : c ∈ n.children) :
    c.focus ∈ n.focus.children :=
  focus_mem_of_mem_siblings h

/-- A child is smaller than its parent. -/
theorem sizeOf_focus_lt_of_mem_children {n c : Node} (h : c ∈ n.children) :
    sizeOf c.focus < sizeOf n.focus := by
  have hmem := List.sizeOf_lt_of_mem (focus_mem_of_mem_children h)
  have hnode : sizeOf n.focus = 1 + sizeOf n.focus.label + sizeOf n.focus.children := by
    cases n.focus; exact Tree.node.sizeOf_spec ..
  omega

/-- The child in a field is a child. -/
theorem mem_children_of_child? {n c : Node} {f : Field} (h : n.child? f = some c) :
    c ∈ n.children :=
  List.mem_of_find?_eq_some h

/-- The child in a field is smaller than its parent. -/
theorem sizeOf_focus_lt_of_child? {n c : Node} {f : Field} (h : n.child? f = some c) :
    sizeOf c.focus < sizeOf n.focus :=
  sizeOf_focus_lt_of_mem_children (mem_children_of_child? h)

/-- The first named child is smaller than its parent. -/
theorem sizeOf_focus_lt_of_head?_namedChildren {n c : Node} (h : n.namedChildren.head? = some c) :
    sizeOf c.focus < sizeOf n.focus :=
  sizeOf_focus_lt_of_mem_children (List.mem_filter.mp (List.mem_of_mem_head? h)).1

/-- Going up shortens the way to the root. -/
theorem length_above_lt_of_parent? {n p : Node} (h : n.parent? = some p) :
    p.above.length < n.above.length := by
  unfold parent? at h
  split at h
  · cases h
  · cases h; simp_all

/-! ### Parentheses -/

/-- The expression inside any number of grouping parentheses. -/
def unwrap (n : Node) : Node :=
  if n.kind = .parenthesized then
    match _h : n.namedChildren.head? with
    | some inner => unwrap inner
    | none => n
  else n
termination_by sizeOf n.focus
decreasing_by exact sizeOf_focus_lt_of_head?_namedChildren _h

/-- What stands in parentheses is not larger than with them. -/
theorem sizeOf_focus_unwrap_le (n : Node) : sizeOf n.unwrap.focus ≤ sizeOf n.focus := by
  fun_induction unwrap n with
  | case1 n _ inner h ih =>
    exact Nat.le_trans ih (Nat.le_of_lt (sizeOf_focus_lt_of_head?_namedChildren h))
  | case2 => exact Nat.le_refl _
  | case3 => exact Nat.le_refl _

/-! ### All nodes -/

/-- The node and all nodes below it, in pre-order. -/
def preorder (n : Node) : List Node :=
  n :: n.children.attach.flatMap (fun c => preorder c.1)
termination_by sizeOf n.focus
decreasing_by exact sizeOf_focus_lt_of_mem_children c.2

end Node
end LoopLint
