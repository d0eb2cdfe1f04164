import LoopLint.Loop.Counted
import LoopLint.Loop.Usage

/-!
# The walk over a syntax tree

The linter reads a syntax tree as a sequence of events: a counted loop opens, a name is used, the
innermost open loop closes.  Of a counted loop only the array and the body are visited, in that
order; of any other node all children, from left to right.  A `for` statement without a body is not
gone into.
-/

namespace LoopLint

/-- What the walk meets. -/
inductive Event where
  /-- A counted loop opens. -/
  | enter (l : CountedLoop)
  /-- A name is used. -/
  | use (n : Node)
  /-- The innermost open loop closes. -/
  | leave
  /-- A `for` statement has no body. -/
  | incomplete
deriving Repr

/-- Whether the node is a `for` statement without a body. -/
def Node.lacksBody (n : Node) : Bool :=
  n.kind == .forStatement && (n.child? .body).isNone

/-- The events of the node and of what is visited below it. -/
def Node.events (n : Node) : List Event :=
  match _h : CountedLoop.ofNode? n with
  | some l => .enter l :: (l.array.events ++ l.body.events ++ [.leave])
  | none =>
    if n.lacksBody then [.incomplete]
    else if n.isAtom then
      if n.isReference then [.use n] else []
    else
      n.children.attach.flatMap (fun c => c.1.events)
termination_by sizeOf n.focus
decreasing_by
  · exact CountedLoop.sizeOf_focus_array_lt _h
  · exact CountedLoop.sizeOf_focus_body_lt _h
  · exact Node.sizeOf_focus_lt_of_mem_children c.2

end LoopLint
