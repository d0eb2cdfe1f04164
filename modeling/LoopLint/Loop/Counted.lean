import LoopLint.Syntax.Node

/-!
# Counted loops

A counted loop is a `for` statement that steps an index through an array:

    for (let i = 0; i < array.length; i++) body

`CountedLoop.ofNode?` recognises the header.  The declaration may say `let`, `var` or `const` and
has a single declarator that starts at `0`; the step may be `i++`, `++i`, `i += 1`, `i = i + 1` or
`i = 1 + i`; the array may be any expression, in parentheses or not.
-/

namespace LoopLint

/-- A counted loop: the statement, the name of its index, the array whose length bounds the index
(without its grouping parentheses), and the body. -/
structure CountedLoop where
  node : Node
  index : String
  array : Node
  body : Node
deriving Repr

namespace CountedLoop

/-- The expression of a part of the header.  Some grammars wrap it into a statement; an empty part
is a lone semicolon. -/
def clause? (n : Node) (f : Field) : Option Node :=
  (n.child? f).bind fun c =>
    match c.kind with
    | .emptyStatement | .semicolon => none
    | .expressionStatement => c.namedChildren.head?
    | _ => some c

/-- The name declared by `let i = 0`, if nothing else is declared with it. -/
def zeroIndex? (initializer : Node) : Option String :=
  if initializer.kind = .lexicalDeclaration ∨ initializer.kind = .variableDeclaration then
    match initializer.namedChildren.filter (fun c => c.kind == .variableDeclarator) with
    | [declarator] =>
      if declarator.childIs .value (·.isNumber "0") then
        ((declarator.child? .name).filter (fun name => name.kind == .identifier)).map (·.text)
      else none
    | _ => none
  else none

/-- Whether an expression is `index + 1` or `1 + index`. -/
def isSuccessor (n : Node) (index : String) : Bool :=
  n.kind == .binary && n.childIs .operator (fun o => o.kind == .plus) &&
    (n.childIs .left (·.isIdentifier index) && n.childIs .right (·.isNumber "1") ||
      n.childIs .left (·.isNumber "1") && n.childIs .right (·.isIdentifier index))

/-- Whether an expression adds one to the index. -/
def isIncrement (n : Node) (index : String) : Bool :=
  match n.kind with
  | .update => n.hasChild .plusPlus && n.namedChildren.head?.any (·.isIdentifier index)
  | .augmentedAssignment =>
    n.childIs .left (·.isIdentifier index) &&
      n.childIs .operator (fun o => o.kind == .plusAssign) && n.childIs .right (·.isNumber "1")
  | .assignment => n.childIs .left (·.isIdentifier index) && n.childIs .right (isSuccessor · index)
  | _ => false

/-- Whether a node is the name `length` behind a dot. -/
def isLengthName (n : Node) : Bool :=
  n.kind == .propertyIdentifier && n.text == "length"

/-- The array of the condition `index < array.length`. -/
def bound? (condition : Node) (index : String) : Option Node :=
  if condition.kind = .binary ∧ condition.childIs .operator (fun o => o.kind == .less) ∧
      condition.childIs .left (·.isIdentifier index) then
    (condition.child? .right).bind fun limit =>
      if limit.kind = .member ∧ limit.childIs .property isLengthName then
        (limit.child? .object).map (·.unwrap)
      else none
  else none

/-- The counted loop that a node is, if it is one. -/
def ofNode? (n : Node) : Option CountedLoop :=
  if n.kind = .forStatement then do
    let initializer ← n.child? .initializer
    let condition ← clause? n .condition
    let step ← clause? n .increment
    let index ← zeroIndex? initializer
    if isIncrement step index then
      let array ← bound? condition index
      let body ← n.child? .body
      some { node := n, index, array, body }
    else none
  else none

/-- The bytes from `for` to the last closing parenthesis among the children, which is the one that
ends the header. -/
def headerRange (l : CountedLoop) : TextRange where
  start := l.node.label.range.start
  stop :=
    match (l.node.children.filter (fun c => c.kind == .closeParen)).getLast? with
    | some paren => paren.label.range.stop
    | none => l.node.label.range.stop

/-! ### The parts are smaller than the loop -/

/-- A clause is smaller than its loop. -/
theorem sizeOf_focus_lt_of_clause? {n c : Node} {f : Field} (h : clause? n f = some c) :
    sizeOf c.focus < sizeOf n.focus := by
  obtain ⟨d, hd, hc⟩ := Option.bind_eq_some_iff.mp h
  have hlt := Node.sizeOf_focus_lt_of_child? hd
  split at hc
  · cases hc
  · cases hc
  · exact Nat.lt_trans (Node.sizeOf_focus_lt_of_head?_namedChildren hc) hlt
  · cases hc; exact hlt

/-- The array is smaller than the condition that names it. -/
theorem sizeOf_focus_lt_of_bound? {n a : Node} {index : String} (h : bound? n index = some a) :
    sizeOf a.focus < sizeOf n.focus := by
  unfold bound? at h
  split at h
  · obtain ⟨limit, hlimit, ha⟩ := Option.bind_eq_some_iff.mp h
    split at ha
    · obtain ⟨object, hobject, rfl⟩ := Option.map_eq_some_iff.mp ha
      have h₁ := Node.sizeOf_focus_lt_of_child? hlimit
      have h₂ := Node.sizeOf_focus_lt_of_child? hobject
      have h₃ := Node.sizeOf_focus_unwrap_le object
      omega
    · cases ha
  · cases h

/-- What recognising a counted loop has established. -/
theorem ofNode?_eq_some_iff {n : Node} {l : CountedLoop} :
    ofNode? n = some l ↔
      n.kind = .forStatement ∧ l.node = n ∧ n.child? .body = some l.body ∧
      ∃ initializer condition step,
        n.child? .initializer = some initializer ∧ clause? n .condition = some condition ∧
        clause? n .increment = some step ∧ zeroIndex? initializer = some l.index ∧
        isIncrement step l.index = true ∧ bound? condition l.index = some l.array := by
  unfold ofNode?
  constructor
  · intro h
    split at h
    · rename_i hkind
      simp only [Option.bind_eq_bind, Option.bind_eq_some_iff] at h
      obtain ⟨i, hi, c, hc, s, hs, index, hindex, h⟩ := h
      split at h
      · rename_i hstep
        simp only [Option.bind_eq_some_iff, Option.some.injEq] at h
        obtain ⟨a, ha, b, hb, rfl⟩ := h
        exact ⟨hkind, rfl, hb, i, c, s, hi, hc, hs, hindex, hstep, ha⟩
      · cases h
    · cases h
  · rintro ⟨hkind, rfl, hb, i, c, s, hi, hc, hs, hindex, hstep, ha⟩
    simp [hkind, hb, hi, hc, hs, hindex, hstep, ha]

/-- The array is smaller than the loop. -/
theorem sizeOf_focus_array_lt {n : Node} {l : CountedLoop} (h : ofNode? n = some l) :
    sizeOf l.array.focus < sizeOf n.focus := by
  obtain ⟨_, _, _, _, _, _, _, hc, _, _, _, ha⟩ := ofNode?_eq_some_iff.mp h
  exact Nat.lt_trans (sizeOf_focus_lt_of_bound? ha) (sizeOf_focus_lt_of_clause? hc)

/-- The body is smaller than the loop. -/
theorem sizeOf_focus_body_lt {n : Node} {l : CountedLoop} (h : ofNode? n = some l) :
    sizeOf l.body.focus < sizeOf n.focus :=
  Node.sizeOf_focus_lt_of_child? (ofNode?_eq_some_iff.mp h).2.2.1

end CountedLoop
end LoopLint
