import LoopLint.Loop.Usage
import LoopLint.Proofs.Syntax.Descent

/-!
# Trees that follow the grammar

A parser puts only certain nodes below a node.  What the grammars of JavaScript and TypeScript allow
below the nodes that a loop header is made of is said by `Node.allows`: a `for` statement has its
four parts, an operation its two operands, parentheses one expression, and so on.  Words, signs and
comments may stand anywhere, and about all other nodes nothing is said.

In such a tree a use of a name below a node stands in one of the allowed children
(`Node.Grammatical.exists_child`).
-/

namespace LoopLint

/-- The type of a name or of an expression, with its colon. -/
def Kind.typeAscription : Kind := .other "type_annotation"

/-- The sign of an access that may be left out. -/
def Kind.optionalChain : Kind := .other "optional_chain"

namespace Node

variable {n m c : Node} {name : String}

/-- Whether the node has nothing below it and is no use of a name. -/
def isTerminal (n : Node) : Bool :=
  n.children.isEmpty && !n.isReference

/-- Whether `c` is the first child of `n` that has a rule of its own. -/
def isFirstNamed (c n : Node) : Bool :=
  n.namedChildren.head?.any (fun d => d.address == c.address)

/-- Whether the grammar has a place below `n` for its child `c`.  Terminal children are left out. -/
def allows (n c : Node) : Bool :=
  match n.kind with
  | .forStatement =>
    c.isPartOf n .initializer || c.isPartOf n .condition || c.isPartOf n .increment ||
      c.isPartOf n .body
  | .lexicalDeclaration | .variableDeclaration => c.label.named && c.kind == .variableDeclarator
  | .variableDeclarator =>
    c.isPartOf n .name || c.isPartOf n .value || c.kind == .typeAscription
  | .expressionStatement | .update => c.isFirstNamed n
  | .parenthesized => c.isFirstNamed n || c.kind == .typeAscription
  | .binary | .assignment | .augmentedAssignment => c.isPartOf n .left || c.isPartOf n .right
  | .member => c.isPartOf n .object || c.isPartOf n .property || c.kind == .optionalChain
  | .identifier | .shorthandProperty | .shorthandPattern | .propertyIdentifier | .number
  | .comment | .htmlComment => false
  | .other kind => kind != "optional_chain"
  | _ => true

/-- Every child in the subtree is terminal or in a place of the grammar. -/
def Grammatical (n : Node) : Prop :=
  ∀ p ∈ n.preorder, ∀ c ∈ p.children, c.isTerminal = true ∨ p.allows c = true

instance (n : Node) : Decidable n.Grammatical :=
  inferInstanceAs (Decidable (∀ p ∈ n.preorder, ∀ c ∈ p.children, _ ∨ _))

/-- What stands in a grammatical tree is grammatical. -/
lemma Grammatical.of_mem_preorder (hn : n.Grammatical) (h : m ∈ n.preorder) : m.Grammatical :=
  fun p hp => hn p (mem_preorder_trans h hp)

/-- The children of a grammatical node are grammatical. -/
lemma Grammatical.of_mem_children (hn : n.Grammatical) (h : c ∈ n.children) : c.Grammatical :=
  hn.of_mem_preorder (mem_preorder_of_mem_children h)

/-- A use below a node stands in a child for which the grammar has a place. -/
lemma Grammatical.exists_child_of_ne (hn : n.Grammatical) (hm : m ∈ n.preorder)
    (hr : m.isReference = true) (hne : m ≠ n) :
    ∃ c ∈ n.children, m ∈ c.preorder ∧ n.allows c = true := by
  rcases mem_preorder_iff.mp hm with heq | ⟨c, hc, hmc⟩
  · exact absurd heq hne
  · refine ⟨c, hc, hmc, ?_⟩
    rcases hn n (self_mem_preorder n) c hc with ht | hallow
    · rw [isTerminal, Bool.and_eq_true, List.isEmpty_iff, Bool.not_eq_true'] at ht
      rcases mem_preorder_iff.mp hmc with rfl | ⟨d, hd, -⟩
      · rw [ht.2] at hr
        cases hr
      · rw [ht.1] at hd
        cases hd
    · exact hallow

/-- A use in a node that is no use itself stands in an allowed child. -/
lemma Grammatical.exists_child (hn : n.Grammatical) (hm : m ∈ n.preorder)
    (hr : m.isReference = true) (hnr : n.isReference = false) :
    ∃ c ∈ n.children, m ∈ c.preorder ∧ n.allows c = true := by
  refine hn.exists_child_of_ne hm hr ?_
  rintro rfl
  rw [hnr] at hr
  cases hr

/-- A use in a node below which nothing is allowed is the node itself. -/
lemma Grammatical.eq_of_allows_nothing (hn : n.Grammatical) (hm : m ∈ n.preorder)
    (hr : m.isReference = true) (h : ∀ c, n.allows c = false) : m = n := by
  by_contra hne
  obtain ⟨c, -, -, hc⟩ := hn.exists_child_of_ne hm hr hne
  rw [h c] at hc
  cases hc

/-- A child is the first named one if the row of named children starts with it. -/
lemma isFirstNamed_eq_true_iff (hc : c ∈ n.children) :
    c.isFirstNamed n = true ↔ n.namedChildren.head? = some c := by
  unfold isFirstNamed
  cases hd : n.namedChildren.head? with
  | none => simp
  | some d =>
    have hdn := (List.mem_filter.mp (List.mem_of_mem_head? hd)).1
    rw [Option.any_some, beq_iff_eq, Option.some.injEq]
    exact ⟨eq_of_address_eq hdn hc, fun h => by rw [h]⟩

/-- The only use in an identifier is the identifier. -/
lemma Grammatical.text_of_isIdentifier (hn : n.Grammatical) (hm : m ∈ n.preorder)
    (hr : m.isReference = true) (h : n.isIdentifier name = true) : m.text = name := by
  rw [isIdentifier, Bool.and_eq_true, beq_iff_eq, beq_iff_eq] at h
  rw [hn.eq_of_allows_nothing hm hr fun c => by simp [allows, h.1]]
  exact h.2

/-- There is no use in a number. -/
lemma Grammatical.not_isNumber (hn : n.Grammatical) (hm : m ∈ n.preorder)
    (hr : m.isReference = true) : ¬ n.isNumber name = true := by
  intro h
  rw [isNumber, Bool.and_eq_true, beq_iff_eq] at h
  rw [hn.eq_of_allows_nothing hm hr fun c => by simp [allows, h.1]] at hr
  simp [isReference, h.1] at hr

/-- A use in an operation stands in one of its operands. -/
lemma Grammatical.exists_operand (hn : n.Grammatical) (hm : m ∈ n.preorder)
    (hr : m.isReference = true)
    (hk : n.kind = .binary ∨ n.kind = .assignment ∨ n.kind = .augmentedAssignment) :
    ∃ c, (n.child? .left = some c ∨ n.child? .right = some c) ∧ m ∈ c.preorder := by
  have hnr : n.isReference = false := by
    rcases hk with hk | hk | hk <;> simp [isReference, hk]
  obtain ⟨c, hc, hmc, hallow⟩ := hn.exists_child hm hr hnr
  have hpart : (c.isPartOf n .left || c.isPartOf n .right) = true := by
    rcases hk with hk | hk | hk <;> simpa [allows, hk] using hallow
  rw [Bool.or_eq_true, isPartOf_eq_true_iff hc, isPartOf_eq_true_iff hc] at hpart
  exact ⟨c, hpart, hmc⟩

end Node
end LoopLint
