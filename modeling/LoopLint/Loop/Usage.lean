import LoopLint.Syntax.Node

/-!
# How an index is used

A use of the index keeps its loop convertible exactly when it reads an element of the loop's array:
`array[index]`, anywhere but where the element is written.
-/

namespace LoopLint

namespace Node

/-- Whether the node stands where a value is assigned, updated, deleted, or bound by a destructuring
pattern. -/
def isWriteTarget (n : Node) : Bool :=
  match _h : n.parent? with
  | none => false
  | some p =>
    match p.kind with
    | .assignment | .augmentedAssignment => n.isPartOf p .left
    | .update => true
    | .unary => p.hasChild .deleteWord
    | .arrayPattern | .restPattern => true
    | .pairPattern => n.isPartOf p .value
    | .assignmentPattern | .objectAssignmentPattern => n.isPartOf p .left
    | .forInStatement => n.isPartOf p .left
    | .parenthesized => isWriteTarget p
    | _ => false
termination_by n.above.length
decreasing_by exact length_above_lt_of_parent? _h

/-- Whether the reference `n` is the index of a read `array[n]`.  Arrays are the same when they are
written with the same words, grouping parentheses aside. -/
def isPureRead (n array : Node) : Bool :=
  match n.parent? with
  | none => false
  | some access =>
    access.kind == .subscript && n.isPartOf access .index &&
      access.childIs .object (fun object => object.unwrap.tokens == array.unwrap.tokens) &&
      !access.isWriteTarget

/-- Whether a property name is the key of an entry of an object, as in `{ i: 1 }`.  Only there does
it count as a use of the name. -/
def isEntryKey (n : Node) : Bool :=
  n.parent?.any (fun p => p.kind == .pair && n.isPartOf p .key)

/-- Whether the node is a use of the name that it spells. -/
def isReference (n : Node) : Bool :=
  match n.kind with
  | .identifier | .shorthandProperty | .shorthandPattern => true
  | .propertyIdentifier => n.isEntryKey
  | _ => false

/-- Nodes below which there is nothing to visit. -/
def isAtom (n : Node) : Bool :=
  match n.kind with
  | .identifier | .shorthandProperty | .shorthandPattern | .propertyIdentifier | .comment
  | .htmlComment => true
  | _ => false

end Node
end LoopLint
