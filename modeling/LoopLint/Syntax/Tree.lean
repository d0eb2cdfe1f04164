import LoopLint.Syntax.Kind
import LoopLint.Text.Offset

/-!
# Syntax trees

A syntax tree is what a parser made of a source text.  Each node knows what it is, which part of its
parent it is, where it stands and which text it covers, so that nothing else has to be asked of the
source.  Trees come as the list of their nodes in pre-order, each with its depth, and
`Tree.ofPreorder?` puts them together.
-/

namespace LoopLint

/-- What is known of a node apart from its children.  A named node is one that the grammar has a
rule for; keywords and punctuation are not named. -/
structure Label where
  kind : Kind
  field : Option Field
  named : Bool
  range : TextRange
  start : Point
  stop : Point
  text : String
deriving DecidableEq, Repr

/-- A syntax tree. -/
inductive Tree where
  | node (label : Label) (children : List Tree)
deriving Repr

namespace Tree

/-- What is known of the root. -/
def label : Tree → Label
  | node l _ => l

/-- The trees below the root, from left to right. -/
def children : Tree → List Tree
  | node _ cs => cs

mutual

/-- The words of a tree: the texts of its leaves, without the empty ones and without comments. -/
def tokens : Tree → List String
  | node l cs =>
    if l.kind.isComment then []
    else match cs with
      | [] => if l.range.start < l.range.stop then [l.text] else []
      | c :: cs => tokens c ++ tokensOf cs

/-- The words of several trees, one after the other. -/
def tokensOf : List Tree → List String
  | [] => []
  | t :: ts => tokens t ++ tokensOf ts

end

mutual

/-- The comments of a tree.  What stands inside a comment is not looked at. -/
def comments : Tree → List Label
  | node l cs => if l.kind.isComment then [l] else commentsOf cs

/-- The comments of several trees, one after the other. -/
def commentsOf : List Tree → List Label
  | [] => []
  | t :: ts => comments t ++ commentsOf ts

end

mutual

/-- The labels of a tree in pre-order. -/
def labels : Tree → List Label
  | node l cs => l :: labelsOf cs

/-- The labels of several trees, one after the other. -/
def labelsOf : List Tree → List Label
  | [] => []
  | t :: ts => labels t ++ labelsOf ts

end

/-! ### Trees from their pre-order

Read from the end, each node finds the trees that follow it; those that lie deeper are its children.
-/

/-- One node before the trees that follow it: the deeper ones become its children. -/
def pushFront (depth : Nat) (label : Label) (following : List (Nat × Tree)) : List (Nat × Tree) :=
  let (below, rest) := following.span (fun t => depth < t.1)
  (depth, .node label (below.map (·.2))) :: rest

/-- The tree whose nodes in pre-order are given with their depths. -/
def ofPreorder? (nodes : List (Nat × Label)) : Option Tree :=
  (nodes.foldr (fun n following => pushFront n.1 n.2 following) []).head?.map (·.2)

end Tree

/-- A node as a parser lists it: its depth, its names, and its range. -/
structure PreorderEntry where
  depth : Nat
  kind : String
  field : String
  named : Bool
  range : TextRange
deriving DecidableEq, Repr

/-- What is known of a listed node once its source text is at hand. -/
def PreorderEntry.label (source : List Char) (e : PreorderEntry) : Label where
  kind := Kind.ofName e.kind
  field := if e.field = "" then none else some (Field.ofName e.field)
  named := e.named
  range := e.range
  start := Text.pointAt source e.range.start
  stop := Text.pointAt source e.range.stop
  text := String.ofList (Text.slice source e.range)

/-- The syntax tree of a source text, from the list of its nodes. -/
def Tree.read? (source : String) (entries : List PreorderEntry) : Option Tree :=
  let cs := source.toList
  Tree.ofPreorder? (entries.map (fun e => (e.depth, e.label cs)))

end LoopLint
