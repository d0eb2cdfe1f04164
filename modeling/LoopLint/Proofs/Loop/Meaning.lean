import LoopLint.Loop.Counted
import LoopLint.Proofs.Syntax.Recast

/-!
# What expressions and loops mean

An evaluator for the expressions that the header of a counted loop is made of: numbers, names, sums,
comparisons, assignments, `++`, the length of an array and the access to an element.  Evaluation may
change the store.  What the evaluator does not know, be it another expression or other operands, has
the meaning that `outside` gives to it.

The body of a loop is a relation between stores, so it may do anything, or not end.  `Runs` says
that a `for` statement ends after certain rounds; it lists the stores in which the body starts.
`RunsOver` says the same of a `for … of` loop over an array, and lists the items.
-/

namespace LoopLint

/-- What an expression can give.  An array is known by its place in the store. -/
inductive Value where
  | number (k : Int)
  | truth (b : Bool)
  | array (place : Nat)
  | other (name : String)
deriving DecidableEq, Repr

/-- The variables in scope, and the arrays. -/
structure Store where
  vars : String → Option Value
  arrays : Nat → List Value

/-- The store after an assignment to a variable. -/
def Store.assign (s : Store) (x : String) (v : Value) : Store :=
  { s with vars := fun y => if y = x then some v else s.vars y }

/-- A variable has the value that it was given. -/
@[simp] lemma Store.vars_assign_self (s : Store) (x : String) (v : Value) :
    (s.assign x v).vars x = some v :=
  if_pos rfl

/-- The other variables keep their values. -/
@[simp] lemma Store.vars_assign_of_ne {x y : String} (h : y ≠ x) (s : Store) (v : Value) :
    (s.assign x v).vars y = s.vars y :=
  if_neg h

/-- Of two values for one variable the later counts. -/
@[simp] lemma Store.assign_assign (s : Store) (x : String) (v w : Value) :
    (s.assign x v).assign x w = s.assign x w := by
  have hvars : ∀ y, (if y = x then some w else if y = x then some v else s.vars y) =
      if y = x then some w else s.vars y := by
    intro y
    split <;> rfl
  exact congrArg (Store.mk · s.arrays) (funext hvars)

/-- Giving a value to a variable changes no array. -/
@[simp] lemma Store.arrays_assign (s : Store) (x : String) (v : Value) :
    (s.assign x v).arrays = s.arrays :=
  rfl

/-- What an expression gives in a store, and the store afterwards. -/
abbrev Meaning := Node → Store → Option (Value × Store)

/-- The number that a decimal numeral stands for.  It is made of digits, and starts with `0` only if
that is all. -/
def numeral? (text : String) : Option Nat :=
  if text.toList ≠ [] ∧ text.toList.all Char.isDigit ∧
      (text.toList.head? = some '0' → text.toList = ['0']) then
    some (text.toList.foldl (fun k c => 10 * k + (c.toNat - '0'.toNat)) 0)
  else none

namespace Node

/-- The part of a node in a field, which is smaller than the node. -/
def part? (n : Node) (f : Field) : Option { c : Node // sizeOf c.focus < sizeOf n.focus } :=
  match h : n.child? f with
  | some c => some ⟨c, sizeOf_focus_lt_of_child? h⟩
  | none => none

/-- The first named child of a node, which is smaller than the node. -/
def first? (n : Node) : Option { c : Node // sizeOf c.focus < sizeOf n.focus } :=
  match h : n.namedChildren.head? with
  | some c => some ⟨c, sizeOf_focus_lt_of_head?_namedChildren h⟩
  | none => none

/-- Whether the sign of an update stands before its operand. -/
def signFirst (n : Node) : Bool :=
  (n.children.find? (fun c => c.label.field == some .operator ||
    c.label.field == some (.other "argument"))).any (fun c => c.label.field == some .operator)

/-- The value of an expression, and the store after its evaluation. -/
def eval (outside : Meaning) (n : Node) (s : Store) : Option (Value × Store) :=
  match n.kind with
  | .number =>
    match numeral? n.text with
    | some k => some (.number k, s)
    | none => outside n s
  | .identifier => (s.vars n.text).map fun v => (v, s)
  | .parenthesized | .expressionStatement => do
    let inner ← n.first?
    eval outside inner.1 s
  | .member =>
    if n.childIs .property CountedLoop.isLengthName then do
      let object ← n.part? .object
      let (v, s₁) ← eval outside object.1 s
      match v with
      | .array place => some (.number (s₁.arrays place).length, s₁)
      | _ => outside n s
    else outside n s
  | .subscript => do
    let object ← n.part? .object
    let index ← n.part? .index
    let (v, s₁) ← eval outside object.1 s
    let (w, s₂) ← eval outside index.1 s₁
    match v, w with
    | .array place, .number k =>
      match k.toNat?.bind fun j => (s₂.arrays place)[j]? with
      | some item => some (item, s₂)
      | none => outside n s
    | _, _ => outside n s
  | .binary => do
    let sign ← n.child? .operator
    if sign.kind = .plus ∨ sign.kind = .less then
      let left ← n.part? .left
      let right ← n.part? .right
      let (v, s₁) ← eval outside left.1 s
      let (w, s₂) ← eval outside right.1 s₁
      match v, w with
      | .number a, .number b =>
        some (if sign.kind = .plus then .number (a + b) else .truth (a < b), s₂)
      | _, _ => outside n s
    else outside n s
  | .assignment => do
    let left ← n.child? .left
    let right ← n.part? .right
    if left.kind = .identifier then
      let (v, s₁) ← eval outside right.1 s
      some (v, s₁.assign left.text v)
    else outside n s
  | .augmentedAssignment => do
    let left ← n.child? .left
    let sign ← n.child? .operator
    let right ← n.part? .right
    if left.kind = .identifier ∧ sign.kind = .plusAssign then
      let old ← s.vars left.text
      let (w, s₁) ← eval outside right.1 s
      match old, w with
      | .number a, .number b => some (.number (a + b), s₁.assign left.text (.number (a + b)))
      | _, _ => outside n s
    else outside n s
  | .update => do
    let argument ← n.child? (.other "argument")
    let sign ← n.child? .operator
    if argument.kind = .identifier ∧ sign.kind = .plusPlus then
      match s.vars argument.text with
      | some (.number a) =>
        some (.number (if n.signFirst then a + 1 else a), s.assign argument.text (.number (a + 1)))
      | _ => outside n s
    else outside n s
  | _ => outside n s
termination_by sizeOf n.focus
decreasing_by
  · exact inner.2
  · exact object.2
  · exact object.2
  · exact index.2
  · exact left.2
  · exact right.2
  · exact right.2
  · exact right.2

/-! ### The rules of evaluation -/

section Rules

variable {n c l r o x : Node} {f : Field} {s s₁ s₂ : Store} {v : Value} {a b : Int} {place : Nat}

/-- The part of a node in a field is its child there, which is a smaller tree. -/
lemma part?_of_child? (h : n.child? f = some c) :
    ∃ hc : sizeOf c.focus < sizeOf n.focus, n.part? f = some ⟨c, hc⟩ := by
  refine ⟨sizeOf_focus_lt_of_child? h, ?_⟩
  unfold part?
  split
  · rename_i d hd
    obtain rfl : c = d := Option.some.inj (h.symm.trans hd)
    rfl
  · rename_i hnone
    rw [h] at hnone
    cases hnone

/-- The first named child of a node is a smaller tree. -/
lemma first?_of_head? (h : n.namedChildren.head? = some c) :
    ∃ hc : sizeOf c.focus < sizeOf n.focus, n.first? = some ⟨c, hc⟩ := by
  refine ⟨sizeOf_focus_lt_of_head?_namedChildren h, ?_⟩
  unfold first?
  split
  · rename_i d hd
    obtain rfl : c = d := Option.some.inj (h.symm.trans hd)
    rfl
  · rename_i hnone
    rw [h] at hnone
    cases hnone

/-- A node names an index if it is an identifier with that text. -/
lemma isIdentifier_eq_true_iff {i : String} :
    n.isIdentifier i = true ↔ n.kind = .identifier ∧ n.text = i := by
  rw [isIdentifier, Bool.and_eq_true, beq_iff_eq, beq_iff_eq]

variable (outside : Meaning)

/-- A numeral gives its number and changes nothing. -/
lemma eval_number {k : Nat} (hn : n.kind = .number) (hk : numeral? n.text = some k) :
    n.eval outside s = some (.number k, s) := by
  rw [eval]
  simp only [hn, hk]

/-- A variable gives its value and changes nothing. -/
lemma eval_identifier {i : String} (hn : n.isIdentifier i = true) (hv : s.vars i = some v) :
    n.eval outside s = some (v, s) := by
  obtain ⟨hkind, htext⟩ := isIdentifier_eq_true_iff.mp hn
  rw [eval]
  simp only [hkind, htext, hv, Option.map_some]

/-- Parentheses, and statements made of an expression, have the value of what is in them. -/
lemma eval_first (hn : n.kind = .parenthesized ∨ n.kind = .expressionStatement)
    (hc : n.namedChildren.head? = some c) : n.eval outside s = c.eval outside s := by
  obtain ⟨hlt, hfirst⟩ := first?_of_head? hc
  rw [eval]
  rcases hn with hn | hn
  · simp only [hn, hfirst, Option.bind_eq_bind, Option.bind_some]
  · simp only [hn, hfirst, Option.bind_eq_bind, Option.bind_some]

/-- Parentheses do not change a value. -/
lemma eval_unwrap (n : Node) : n.unwrap.eval outside s = n.eval outside s := by
  fun_induction unwrap n with
  | case1 n hn inner hinner ih => rw [ih, eval_first outside (.inl hn) hinner]
  | case2 => rfl
  | case3 => rfl

/-- The length of what evaluates to an array is the number of its elements then. -/
lemma eval_length (hn : n.kind = .member)
    (hlength : n.childIs .property CountedLoop.isLengthName = true)
    (ho : n.child? .object = some o) (heval : o.eval outside s = some (.array place, s₁)) :
    n.eval outside s = some (.number (s₁.arrays place).length, s₁) := by
  obtain ⟨hlt, hpart⟩ := part?_of_child? ho
  rw [eval]
  simp only [hn, hlength, if_true, hpart, heval, Option.bind_eq_bind, Option.bind_some]

/-- An access gives the element at its index; the object is evaluated first. -/
lemma eval_element {k : Nat} (hn : n.kind = .subscript) (ho : n.child? .object = some o)
    (hx : n.child? .index = some x) (hobject : o.eval outside s = some (.array place, s₁))
    (hindex : x.eval outside s₁ = some (.number k, s₂)) (hv : (s₂.arrays place)[k]? = some v) :
    n.eval outside s = some (v, s₂) := by
  obtain ⟨_, hpart⟩ := part?_of_child? ho
  obtain ⟨_, hpart'⟩ := part?_of_child? hx
  rw [eval]
  simp [hn, hpart, hpart', hobject, hindex, hv, Int.toNat?]

/-- Both operands of `+` and `<` are evaluated, the left one first. -/
lemma eval_binary {sign : Node} (hn : n.kind = .binary) (hl : n.child? .left = some l)
    (hr : n.child? .right = some r) (hsign : n.child? .operator = some sign)
    (hleft : l.eval outside s = some (.number a, s₁))
    (hright : r.eval outside s₁ = some (.number b, s₂)) :
    (sign.kind = .plus → n.eval outside s = some (.number (a + b), s₂)) ∧
      (sign.kind = .less → n.eval outside s = some (.truth (a < b), s₂)) := by
  obtain ⟨_, hpart⟩ := part?_of_child? hl
  obtain ⟨_, hpart'⟩ := part?_of_child? hr
  constructor
  · intro hk
    rw [eval]
    simp [hn, hsign, hk, hpart, hpart', hleft, hright]
  · intro hk
    rw [eval]
    simp [hn, hsign, hk, hpart, hpart', hleft, hright]

/-- An assignment evaluates the right side and gives its value to the variable. -/
lemma eval_assignment (hn : n.kind = .assignment) (hl : n.child? .left = some l)
    (hr : n.child? .right = some r) (hkind : l.kind = .identifier)
    (hright : r.eval outside s = some (v, s₁)) :
    n.eval outside s = some (v, s₁.assign l.text v) := by
  obtain ⟨_, hpart⟩ := part?_of_child? hr
  rw [eval]
  simp [hn, hl, hpart, hkind, hright]

/-- An assignment with `+=` adds the value of the right side to that of the variable before. -/
lemma eval_addition {sign : Node} (hn : n.kind = .augmentedAssignment)
    (hl : n.child? .left = some l) (hr : n.child? .right = some r)
    (hsign : n.child? .operator = some sign) (hkind : l.kind = .identifier)
    (hplus : sign.kind = .plusAssign) (hold : s.vars l.text = some (.number a))
    (hright : r.eval outside s = some (.number b, s₁)) :
    n.eval outside s = some (.number (a + b), s₁.assign l.text (.number (a + b))) := by
  obtain ⟨_, hpart⟩ := part?_of_child? hr
  rw [eval]
  simp [hn, hl, hsign, hpart, hkind, hplus, hold, hright]

/-- A `++` adds one to a variable; where it stands decides which of the two values it gives. -/
lemma eval_update {sign : Node} (hn : n.kind = .update)
    (hx : n.child? (.other "argument") = some x) (hsign : n.child? .operator = some sign)
    (hkind : x.kind = .identifier) (hplus : sign.kind = .plusPlus)
    (hold : s.vars x.text = some (.number a)) :
    n.eval outside s = some (.number (if n.signFirst then a + 1 else a),
      s.assign x.text (.number (a + 1))) := by
  rw [eval]
  simp [hn, hx, hsign, hkind, hplus, hold]

end Rules

/-! ### Loops -/

/-- The store after a declarator that gives a value to a name. -/
def declareOne (outside : Meaning) (s : Store) (d : Node) : Option Store := do
  let name ← d.child? .name
  let value ← d.child? .value
  let (v, s₁) ← value.eval outside s
  if name.kind = .identifier then some (s₁.assign name.text v) else none

/-- The store after a declaration.  All keywords declare variables that can be assigned to. -/
def declare (outside : Meaning) (d : Node) (s : Store) : Option Store :=
  (d.children.filter fun c => c.kind == .variableDeclarator).foldlM (declareOne outside) s

/-- The store after the initializer of a `for` statement, which is a declaration. -/
def enter (outside : Meaning) (n : Node) (s : Store) : Option Store :=
  (n.child? .initializer).bind fun d => d.declare outside s

/-- Whether a `for` statement goes on, and the store after the test. -/
def test (outside : Meaning) (n : Node) (s : Store) : Option (Bool × Store) := do
  let condition ← n.child? .condition
  match ← condition.eval outside s with
  | (.truth b, s₁) => some (b, s₁)
  | _ => none

/-- The store after the step of a `for` statement. -/
def advance (outside : Meaning) (n : Node) (s : Store) : Option Store := do
  let step ← n.child? .increment
  let (_, s₁) ← step.eval outside s
  some s₁

/-- The rounds of a `for` statement, from the test on.  Listed are the stores in which the body
starts. -/
inductive Rounds (outside : Meaning) (n : Node) (body : Store → Store → Prop) :
    Store → List Store → Store → Prop
  | stop {s s' : Store} (htest : n.test outside s = some (false, s')) :
      Rounds outside n body s [] s'
  | round {s s₁ s₂ s₃ s' : Store} {starts : List Store}
      (htest : n.test outside s = some (true, s₁)) (hbody : body s₁ s₂)
      (hstep : n.advance outside s₂ = some s₃) (h : Rounds outside n body s₃ starts s') :
      Rounds outside n body s (s₁ :: starts) s'

/-- A `for` statement runs from `s` to `s'`, and its body starts in the given stores. -/
def Runs (outside : Meaning) (n : Node) (body : Store → Store → Prop) (s : Store)
    (starts : List Store) (s' : Store) : Prop :=
  ∃ s₀, n.enter outside s = some s₀ ∧ Rounds outside n body s₀ starts s'

/-- The rounds of a `for … of` loop over the array at a place, from an index on.  The array is
looked at anew in each round. -/
inductive Visits (place : Nat) (body : Value → Store → Store → Prop) :
    Nat → Store → List Value → Store → Prop
  | stop {k : Nat} {s : Store} (hend : (s.arrays place)[k]? = none) : Visits place body k s [] s
  | visit {k : Nat} {s s₁ s' : Store} {v : Value} {items : List Value}
      (hitem : (s.arrays place)[k]? = some v) (hbody : body v s s₁)
      (h : Visits place body (k + 1) s₁ items s') : Visits place body k s (v :: items) s'

/-- A `for … of` loop over the array that an expression gives runs from `s` to `s'`, with the given
items. -/
def RunsOver (outside : Meaning) (array : Node) (body : Value → Store → Store → Prop) (s : Store)
    (items : List Value) (s' : Store) : Prop :=
  ∃ place s₀, array.eval outside s = some (.array place, s₀) ∧ Visits place body 0 s₀ items s'

end Node
end LoopLint
