import LoopLint.Syntax.Node
import Mathlib.Data.List.Basic
import Mathlib.Tactic.Common

/-!
# Going down and up in a syntax tree

A child of a node knows its parent (`parent?_of_mem_children`): putting the subtree back into its
frame gives the tree that it was taken from.  So every node has one ancestor at each depth, and two
nodes above a third one lie on one way down (`mem_preorder_of_above_length_le`).  This is what keeps
apart the subtrees of different children.
-/

namespace LoopLint

namespace Tree

mutual

/-- The tree and all trees below its root, in pre-order. -/
def subtrees : Tree → List Tree
  | node l cs => node l cs :: subtreesOf cs

/-- The subtrees of several trees, one after the other. -/
def subtreesOf : List Tree → List Tree
  | [] => []
  | t :: ts => subtrees t ++ subtreesOf ts

end

/-- The subtrees of some trees are those of one behind those of the other. -/
lemma subtreesOf_eq (ts : List Tree) : subtreesOf ts = ts.flatMap subtrees := by
  induction ts with
  | nil => rw [subtreesOf, List.flatMap_nil]
  | cons t ts ih => rw [subtreesOf, ih, List.flatMap_cons]

/-- The subtrees are the tree itself and those of its children. -/
lemma subtrees_eq (t : Tree) : t.subtrees = t :: t.children.flatMap subtrees := by
  obtain ⟨l, cs⟩ := t
  rw [subtrees, subtreesOf_eq]
  rfl

/-- A tree is a subtree of itself. -/
lemma self_mem_subtrees (t : Tree) : t ∈ t.subtrees := by
  rw [subtrees_eq]
  exact List.mem_cons_self

/-- The subtrees of a child are subtrees of the tree. -/
lemma mem_subtrees_of_mem_children {t u c : Tree} (hc : c ∈ t.children) (hu : u ∈ c.subtrees) :
    u ∈ t.subtrees := by
  rw [subtrees_eq]
  exact List.mem_cons_of_mem _ (List.mem_flatMap.mpr ⟨c, hc, hu⟩)

/-- The comments of some trees are those of one behind those of the other. -/
lemma commentsOf_eq (ts : List Tree) : commentsOf ts = ts.flatMap comments := by
  induction ts with
  | nil => rfl
  | cons t ts ih => rw [commentsOf, ih, List.flatMap_cons]

/-- The comments of a tree that is no comment are those of the trees below. -/
lemma comments_eq {t : Tree} (h : t.label.kind.isComment = false) :
    t.comments = t.children.flatMap comments := by
  obtain ⟨label, ts⟩ := t
  have hlabel : label.kind.isComment = false := h
  rw [comments, hlabel, commentsOf_eq]
  rfl

end Tree

namespace Node

variable {n m r c p : Node}

/-! ### Parents -/

/-- A node of a row of siblings has the parent whose children are the whole row. -/
lemma parent?_of_mem_siblings {label : Label} {above : List Frame} {left ts : List Tree}
    (h : c ∈ siblings label above left ts) :
    c.parent? = some ⟨.node label (left.reverseAux ts), above⟩ := by
  induction ts generalizing left with
  | nil => cases h
  | cons t ts ih =>
    rcases List.mem_cons.mp h with rfl | h
    · rfl
    · exact ih h

/-- The parent of a child is the node itself. -/
lemma parent?_of_mem_children (h : c ∈ n.children) : c.parent? = some n := by
  obtain ⟨⟨label, ts⟩, above⟩ := n
  exact parent?_of_mem_siblings h

/-- A tree in a row of siblings is a node with the rest of the row around it. -/
lemma mem_siblings_append (label : Label) (above : List Frame) (left before : List Tree) (t : Tree)
    (rest : List Tree) :
    ⟨t, ⟨label, before.reverseAux left, rest⟩ :: above⟩ ∈
      siblings label above left (before ++ t :: rest) := by
  induction before generalizing left with
  | nil => exact List.mem_cons_self
  | cons b before ih => exact List.mem_cons_of_mem _ (ih (b :: left))

/-- A node is a child of its parent. -/
lemma mem_children_of_parent? (h : n.parent? = some p) : n ∈ p.children := by
  obtain ⟨t, above⟩ := n
  cases above with
  | nil => cases h
  | cons f above =>
    cases h
    have hmem := mem_siblings_append f.label above [] f.left.reverse t f.right
    rw [List.reverseAux_eq, List.reverse_reverse, List.append_nil, ← List.reverseAux_eq] at hmem
    exact hmem

/-- A child has one parent. -/
lemma eq_of_mem_children_of_mem_children (hn : c ∈ n.children) (hm : c ∈ m.children) : n = m := by
  have h := parent?_of_mem_children hn
  rw [parent?_of_mem_children hm] at h
  exact (Option.some.inj h).symm

/-- A child stands one level below its parent. -/
lemma above_length_of_mem_siblings {label : Label} {above : List Frame} {left ts : List Tree}
    (h : c ∈ siblings label above left ts) : c.above.length = above.length + 1 := by
  induction ts generalizing left with
  | nil => cases h
  | cons t ts ih =>
    rcases List.mem_cons.mp h with rfl | h
    · rfl
    · exact ih h

/-- A child lies one level deeper. -/
lemma above_length_of_mem_children (h : c ∈ n.children) :
    c.above.length = n.above.length + 1 :=
  above_length_of_mem_siblings h

/-! ### Rows of siblings -/

/-- A child has all that was to the left before to its left. -/
lemma left_length_le_of_mem_siblings {label : Label} {above : List Frame} {left ts : List Tree}
    (h : c ∈ siblings label above left ts) :
    ∃ f, c.above = f :: above ∧ left.length ≤ f.left.length := by
  induction ts generalizing left with
  | nil => cases h
  | cons t ts ih =>
    rcases List.mem_cons.mp h with rfl | h
    · exact ⟨_, rfl, Nat.le_refl _⟩
    · obtain ⟨f, hf, hle⟩ := ih h
      exact ⟨f, hf, Nat.le_of_succ_le hle⟩

/-- The children are different nodes, even where their trees are the same: each has another number
of siblings on its left. -/
lemma nodup_children (n : Node) : n.children.Nodup := by
  have hrow : ∀ left ts, (siblings n.label n.above left ts).Nodup := by
    intro left ts
    induction ts generalizing left with
    | nil => exact List.nodup_nil
    | cons t ts ih =>
      refine List.nodup_cons.mpr ⟨fun h => ?_, ih (t :: left)⟩
      obtain ⟨f, hf, hle⟩ := left_length_le_of_mem_siblings h
      obtain ⟨rfl, -⟩ := List.cons.inj hf
      exact absurd hle (Nat.not_succ_le_self _)
  exact hrow [] n.focus.children

/-- The trees of the children are the trees below the parent. -/
lemma map_focus_siblings (label : Label) (above : List Frame) (left ts : List Tree) :
    (siblings label above left ts).map (·.focus) = ts := by
  induction ts generalizing left with
  | nil => rfl
  | cons t ts ih => rw [siblings, List.map_cons, ih]

/-- The trees of the children are the trees below the root. -/
lemma map_focus_children (n : Node) : n.children.map (·.focus) = n.focus.children :=
  map_focus_siblings _ _ _ _

/-! ### Everything below -/

/-- What holds of a node as soon as it holds of its children holds of every node. -/
theorem childrenInduction {motive : Node → Prop}
    (step : ∀ n, (∀ c ∈ n.children, motive c) → motive n) (n : Node) : motive n :=
  step n fun c _ => childrenInduction step c
termination_by sizeOf n.focus
decreasing_by exact sizeOf_focus_lt_of_mem_children ‹_›

/-- What holds of a node as soon as it holds of its parent holds of every node. -/
theorem parentInduction {motive : Node → Prop}
    (step : ∀ n, (∀ p, n ∈ p.children → motive p) → motive n) (n : Node) : motive n :=
  step n fun p _ => parentInduction step p
termination_by n.above.length
decreasing_by
  have hlen := above_length_of_mem_children ‹_›
  omega

/-- The nodes of a subtree are its root and the nodes below the children. -/
lemma preorder_eq (n : Node) : n.preorder = n :: n.children.flatMap preorder := by
  rw [preorder, List.flatMap_subtype (g := preorder) (fun _ _ => rfl), List.unattach_attach]

/-- The trees of the nodes of a subtree are its subtrees. -/
lemma map_focus_preorder (n : Node) : n.preorder.map (·.focus) = n.focus.subtrees := by
  induction n using childrenInduction with
  | step n ih =>
    rw [preorder_eq, List.map_cons, List.map_flatMap, Tree.subtrees_eq, ← map_focus_children,
      List.flatMap_map]
    congr 1
    exact List.flatMap_congr fun c hc => ih c hc

/-- The tree of a node below another one is a subtree of that one's. -/
lemma focus_mem_subtrees (h : m ∈ n.preorder) : m.focus ∈ n.focus.subtrees := by
  rw [← map_focus_preorder]
  exact List.mem_map_of_mem h

/-- What stands in the subtree of a node is the node itself or stands in that of a child. -/
lemma mem_preorder_iff : m ∈ n.preorder ↔ m = n ∨ ∃ c ∈ n.children, m ∈ c.preorder := by
  rw [preorder_eq, List.mem_cons, List.mem_flatMap]

/-- A node stands in its own subtree. -/
@[simp] lemma self_mem_preorder (n : Node) : n ∈ n.preorder :=
  mem_preorder_iff.mpr (Or.inl rfl)

/-- What is below a node of a subtree is in the subtree. -/
lemma mem_preorder_trans (hm : m ∈ n.preorder) (hr : r ∈ m.preorder) : r ∈ n.preorder := by
  induction n using childrenInduction with
  | step n ih =>
    rcases mem_preorder_iff.mp hm with rfl | ⟨c, hc, hmc⟩
    · exact hr
    · exact mem_preorder_iff.mpr (Or.inr ⟨c, hc, ih c hc hmc⟩)

/-- The children of a node stand in its subtree. -/
lemma mem_preorder_of_mem_children (h : c ∈ n.children) : c ∈ n.preorder :=
  mem_preorder_iff.mpr (Or.inr ⟨c, h, self_mem_preorder c⟩)

/-- What stands in the subtree of a child stands in that of the node. -/
lemma mem_preorder_of_mem_preorder_child (hc : c ∈ n.children) (hm : m ∈ c.preorder) :
    m ∈ n.preorder :=
  mem_preorder_trans (mem_preorder_of_mem_children hc) hm

/-- A node of a subtree is its root or a child of a node of the subtree. -/
lemma eq_or_mem_children_of_mem_preorder (h : m ∈ n.preorder) :
    m = n ∨ ∃ p ∈ n.preorder, m ∈ p.children := by
  induction n using childrenInduction with
  | step n ih =>
    rcases mem_preorder_iff.mp h with rfl | ⟨c, hc, hm⟩
    · exact Or.inl rfl
    · rcases ih c hc hm with rfl | ⟨p, hp, hmp⟩
      · exact Or.inr ⟨n, self_mem_preorder n, hc⟩
      · exact Or.inr ⟨p, mem_preorder_of_mem_preorder_child hc hp, hmp⟩

/-- The parent of a node of a tree is in the tree. -/
lemma mem_preorder_of_mem_children_ofTree {t : Tree} (h : n ∈ (ofTree t).preorder)
    (hp : n ∈ p.children) : p ∈ (ofTree t).preorder := by
  rcases eq_or_mem_children_of_mem_preorder h with rfl | ⟨q, hq, hnq⟩
  · -- The root has no parent.
    cases parent?_of_mem_children hp
  · rwa [eq_of_mem_children_of_mem_children hp hnq]

/-- Nodes of a subtree are not higher than its root. -/
lemma above_length_le_of_mem_preorder (h : m ∈ n.preorder) :
    n.above.length ≤ m.above.length := by
  induction n using childrenInduction with
  | step n ih =>
    rcases mem_preorder_iff.mp h with rfl | ⟨c, hc, hm⟩
    · exact Nat.le_refl _
    · have hlt := ih c hc hm
      rw [above_length_of_mem_children hc] at hlt
      omega

/-- The nodes above a given one lie on one way down: the deeper is below the higher. -/
lemma mem_preorder_of_above_length_le (hn : r ∈ n.preorder) (hm : r ∈ m.preorder)
    (hle : n.above.length ≤ m.above.length) : m ∈ n.preorder := by
  -- The way up from `r` meets `m` no later than `n`.
  induction hd : r.above.length - m.above.length generalizing r with
  | zero =>
    rcases eq_or_mem_children_of_mem_preorder hm with rfl | ⟨p, hp, hrp⟩
    · exact hn
    · have h₁ := above_length_le_of_mem_preorder hp
      have h₂ := above_length_of_mem_children hrp
      omega
  | succ d ih =>
    rcases eq_or_mem_children_of_mem_preorder hm with rfl | ⟨p, hp, hrp⟩
    · exact hn
    · have h₁ := above_length_le_of_mem_preorder hp
      have h₂ := above_length_of_mem_children hrp
      rcases eq_or_mem_children_of_mem_preorder hn with rfl | ⟨q, hq, hrq⟩
      · omega
      · obtain rfl := eq_of_mem_children_of_mem_children hrp hrq
        exact ih hq hp (by omega)

/-- Of two nodes above a third one, the first is below the second or the second below the first. -/
lemma mem_preorder_or_mem_preorder (hn : r ∈ n.preorder) (hm : r ∈ m.preorder) :
    m ∈ n.preorder ∨ n ∈ m.preorder := by
  rcases Nat.le_total n.above.length m.above.length with hle | hle
  · exact Or.inl (mem_preorder_of_above_length_le hn hm hle)
  · exact Or.inr (mem_preorder_of_above_length_le hm hn hle)

/-- Subtrees that start at one depth and share a node are the same. -/
lemma eq_of_above_length_eq (hn : r ∈ n.preorder) (hm : r ∈ m.preorder)
    (heq : n.above.length = m.above.length) : n = m := by
  have h := mem_preorder_of_above_length_le hn hm (Nat.le_of_eq heq)
  rcases eq_or_mem_children_of_mem_preorder h with rfl | ⟨p, hp, hmp⟩
  · rfl
  · have h₁ := above_length_le_of_mem_preorder hp
    have h₂ := above_length_of_mem_children hmp
    omega

/-- Nodes below each other are the same. -/
lemma mem_preorder_antisymm (hm : m ∈ n.preorder) (hn : n ∈ m.preorder) : m = n := by
  have h₁ := above_length_le_of_mem_preorder hm
  have h₂ := above_length_le_of_mem_preorder hn
  exact eq_of_above_length_eq hn (self_mem_preorder n) (by omega)

/-- The subtrees of two children share nothing. -/
lemma eq_of_mem_preorder_children {d : Node} (hc : c ∈ n.children) (hd : d ∈ n.children)
    (hrc : r ∈ c.preorder) (hrd : r ∈ d.preorder) : c = d := by
  refine eq_of_above_length_eq hrc hrd ?_
  rw [above_length_of_mem_children hc, above_length_of_mem_children hd]

/-! ### Ways down -/

/-- `m` stands in the subtree of `n`, and every node on the way from `n` down to `m` has the
property; `m` itself need not have it. -/
def Via (P : Node → Prop) (n m : Node) : Prop :=
  m ∈ n.preorder ∧ ∀ t ∈ n.preorder, m ∈ t.preorder → t = m ∨ P t

/-- There is nothing on the way from a node to itself. -/
lemma Via.refl (P : Node → Prop) (n : Node) : Via P n n :=
  ⟨self_mem_preorder n, fun _ ht hn => Or.inl (mem_preorder_antisymm ht hn)⟩

/-- A way down from a child is a way down from the node. -/
lemma Via.child {P : Node → Prop} (hn : P n) (hc : c ∈ n.children) (h : Via P c m) : Via P n m := by
  refine ⟨mem_preorder_of_mem_preorder_child hc h.1, fun t ht hm => ?_⟩
  rcases mem_preorder_iff.mp ht with rfl | ⟨d, hd, htd⟩
  · exact Or.inr hn
  · obtain rfl := eq_of_mem_preorder_children hc hd h.1 (mem_preorder_trans htd hm)
    exact h.2 t htd hm

/-- A way down can be continued to a child. -/
lemma Via.down {P : Node → Prop} (h : Via P n m) (hm : P m) (hc : c ∈ m.children) : Via P n c := by
  refine ⟨mem_preorder_trans h.1 (mem_preorder_of_mem_children hc), fun t ht hct => ?_⟩
  rcases eq_or_mem_children_of_mem_preorder hct with rfl | ⟨q, hq, hcq⟩
  · exact Or.inl rfl
  · obtain rfl := eq_of_mem_children_of_mem_children hc hcq
    rcases h.2 t ht hq with rfl | hP
    · exact Or.inr hm
    · exact Or.inr hP

/-- A way along nodes with a property is a way along nodes with a weaker one. -/
lemma Via.mono {P Q : Node → Prop} (hPQ : ∀ t, P t → Q t) (h : Via P n m) : Via Q n m :=
  ⟨h.1, fun t ht hm => (h.2 t ht hm).imp_right (hPQ t)⟩

/-! ### Comments on the way -/

/-- The comments below a child are comments below the node. -/
lemma comments_subset_of_mem_children (hn : n.kind.isComment = false) (hc : c ∈ n.children) :
    c.focus.comments ⊆ n.focus.comments := by
  intro x hx
  rw [Tree.comments_eq hn, List.mem_flatMap]
  exact ⟨c.focus, focus_mem_of_mem_children hc, hx⟩

/-- On a way down that passes no comment, comments below are comments above. -/
lemma Via.comments_subset (h : Via (·.kind.isComment = false) n m) :
    m.focus.comments ⊆ n.focus.comments := by
  induction n using childrenInduction with
  | step n ih =>
    rcases h.2 n (self_mem_preorder n) h.1 with rfl | hn
    · exact List.Subset.refl _
    · rcases mem_preorder_iff.mp h.1 with rfl | ⟨c, hc, hm⟩
      · exact List.Subset.refl _
      · have hsub := ih c hc ⟨hm, fun t ht => h.2 t (mem_preorder_of_mem_preorder_child hc ht)⟩
        exact List.Subset.trans hsub (comments_subset_of_mem_children hn hc)

/-! ### Fields -/

/-- The part of a node that stands in a field carries the field. -/
lemma field_of_child? {f : Field} (h : n.child? f = some c) : c.label.field = some f := by
  have h' := List.find?_some h
  simpa using h'

/-- The tree of the part of a node that stands in a field. -/
lemma map_focus_child? (n : Node) (f : Field) :
    (n.child? f).map (·.focus) = n.focus.children.find? (fun u => u.label.field == some f) := by
  rw [child?, ← map_focus_children, List.find?_map]
  rfl

/-- Parts of a node that stand in different fields share nothing. -/
lemma field_eq_of_mem_preorder {d : Node} {f g : Field} (hc : n.child? f = some c)
    (hd : n.child? g = some d) (hrc : r ∈ c.preorder) (hrd : r ∈ d.preorder) : f = g := by
  have heq := eq_of_mem_preorder_children (mem_children_of_child? hc) (mem_children_of_child? hd)
    hrc hrd
  have hfield := field_of_child? hc
  rw [heq, field_of_child? hd] at hfield
  exact (Option.some.inj hfield).symm

/-- A test of a part of a node. -/
lemma childIs_eq_true_iff {f : Field} {p : Node → Bool} :
    n.childIs f p = true ↔ ∃ c, n.child? f = some c ∧ p c = true := by
  unfold childIs
  cases h : n.child? f <;> simp

/-- What is tested of a part holds of it. -/
lemma of_childIs {f : Field} {p : Node → Bool} (h : n.childIs f p = true)
    (hc : n.child? f = some c) : p c = true := by
  obtain ⟨d, hd, hp⟩ := childIs_eq_true_iff.mp h
  rw [hc] at hd
  cases hd
  exact hp

/-- Siblings at the same address are the same. -/
lemma eq_of_address_eq_of_mem_siblings {d : Node} {label : Label} {above : List Frame}
    {left ts : List Tree} (hc : c ∈ siblings label above left ts)
    (hd : d ∈ siblings label above left ts) (h : c.address = d.address) : c = d := by
  induction ts generalizing left with
  | nil => cases hc
  | cons t ts ih =>
    -- The first of the row has fewer siblings on its left than any other.
    have hfirst : ∀ e ∈ siblings label above (t :: left) ts,
        e.address ≠ address ⟨t, ⟨label, left, ts⟩ :: above⟩ := by
      intro e he heq
      obtain ⟨f, hf, hle⟩ := left_length_le_of_mem_siblings he
      simp only [address, hf, List.map_cons, List.cons.injEq, List.length_cons] at heq hle
      omega
    rcases List.mem_cons.mp hc with rfl | hc' <;> rcases List.mem_cons.mp hd with rfl | hd'
    · rfl
    · exact absurd h.symm (hfirst d hd')
    · exact absurd h (hfirst c hc')
    · exact ih hc' hd'

/-- Children with the same address are the same. -/
lemma eq_of_address_eq {d : Node} (hc : c ∈ n.children) (hd : d ∈ n.children)
    (h : c.address = d.address) : c = d :=
  eq_of_address_eq_of_mem_siblings hc hd h

/-- A child is a part of the node if the field leads to it. -/
lemma isPartOf_eq_true_iff {f : Field} (hc : c ∈ n.children) :
    c.isPartOf n f = true ↔ n.child? f = some c := by
  unfold isPartOf
  rw [childIs_eq_true_iff]
  constructor
  · rintro ⟨d, hd, haddr⟩
    rw [eq_of_address_eq hc (mem_children_of_child? hd) (eq_of_beq haddr).symm]
    exact hd
  · intro h
    exact ⟨c, h, beq_self_eq_true _⟩

end Node
end LoopLint
