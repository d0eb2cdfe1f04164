import LoopLint.Proofs.Syntax.Recast

/-!
# Trees without layout

How a text is laid out, in lines, with blanks and comments, is not part of the program that it
spells.  `Tree.bare` is what is left of a syntax tree when the layout is taken away: comments are
deleted, and of each other node stay its kind, its field, whether it has a rule of its own, and its
text where the text is a word of the program.  A node that held nothing but comments is left as an
empty leaf.

Nodes lose their layout together with their surroundings (`Node.bare`), so two nodes that are the
same without layout stand at the same place of the same bare tree.  Going down and up in a tree
commutes with taking the layout away, if comments are skipped and are no parts of their parents:
taking the layout away is a recast (`Recast.bare`).
-/

namespace LoopLint

/-- Whether the node covers some text. -/
def Label.covers (l : Label) : Bool :=
  l.range.start < l.range.stop

/-- What is known of a node without layout.  A leaf is a word if it covers some text; of other nodes
the text is kept if they are known by it. -/
def Label.bare (l : Label) (leaf : Bool) : Label where
  kind := l.kind
  field := l.field
  named := l.named
  range := if leaf && l.covers then ⟨0, 1⟩ else ⟨0, 0⟩
  start := ⟨0, 0⟩
  stop := ⟨0, 0⟩
  text := if l.kind.isSpelled || leaf && l.covers then l.text else ""

/-- Without layout, only a leaf that covers some text still does. -/
lemma Label.covers_bare (l : Label) (leaf : Bool) : (l.bare leaf).covers = (leaf && l.covers) := by
  cases leaf with
  | false => rfl
  | true =>
    by_cases h : l.covers = true
    · rw [covers, bare, h]
      rfl
    · rw [Bool.not_eq_true] at h
      rw [covers, bare, h]
      rfl

/-- A leaf that covers some text keeps it. -/
lemma Label.text_bare_of_covers {l : Label} (h : l.covers = true) :
    (l.bare true).text = l.text := by
  simp [bare, h]

namespace Tree

mutual

/-- Whether two trees are the same. -/
def decEq : (t u : Tree) → Decidable (t = u)
  | node l ts, node m us =>
    match instDecidableEqLabel l m, decEqOf ts us with
    | isTrue hl, isTrue hts => isTrue (by rw [hl, hts])
    | isFalse hl, _ => isFalse fun h => hl (node.inj h).1
    | _, isFalse hts => isFalse fun h => hts (node.inj h).2

/-- Whether two rows of trees are the same. -/
def decEqOf : (ts us : List Tree) → Decidable (ts = us)
  | [], [] => isTrue rfl
  | [], _ :: _ => isFalse nofun
  | _ :: _, [] => isFalse nofun
  | t :: ts, u :: us =>
    match decEq t u, decEqOf ts us with
    | isTrue ht, isTrue hts => isTrue (by rw [ht, hts])
    | isFalse ht, _ => isFalse fun h => ht (List.cons.inj h).1
    | _, isFalse hts => isFalse fun h => hts (List.cons.inj h).2

end

instance : DecidableEq Tree := decEq

mutual

/-- The tree without layout. -/
def bare : Tree → Tree
  | node l cs => node (l.bare cs.isEmpty) (bareOf cs)

/-- A row of trees without layout: comments are left out. -/
def bareOf : List Tree → List Tree
  | [] => []
  | t :: ts => if t.label.kind.isComment then bareOf ts else bare t :: bareOf ts

end

/-- What is left of a tree without layout; of a comment nothing is. -/
def bare? (t : Tree) : Option Tree :=
  if t.label.kind.isComment then none else some t.bare

variable {t : Tree} {ts us : List Tree}

/-- Nothing is left of nothing. -/
@[simp] lemma bareOf_nil : bareOf [] = [] := by
  rw [bareOf]

/-- A comment is dropped. -/
lemma bareOf_cons_of_comment (h : t.label.kind.isComment = true) :
    bareOf (t :: ts) = bareOf ts := by
  rw [bareOf, if_pos h]

/-- A tree that is no comment stays, without its layout. -/
lemma bareOf_cons (h : t.label.kind.isComment = false) :
    bareOf (t :: ts) = t.bare :: bareOf ts := by
  rw [bareOf, h]
  rfl

/-- The trees to the left of a node, which are kept in reverse, lose their layout like any others.
-/
lemma bareOf_reverseAux (ts us : List Tree) :
    bareOf (ts.reverseAux us) = (bareOf ts).reverseAux (bareOf us) := by
  induction ts generalizing us with
  | nil => rw [bareOf_nil]; rfl
  | cons t ts ih =>
    rw [List.reverseAux_cons, ih]
    cases h : t.label.kind.isComment with
    | true => rw [bareOf_cons_of_comment h, bareOf_cons_of_comment h]
    | false => rw [bareOf_cons h, bareOf_cons h, List.reverseAux_cons]

/-- The label of a tree loses its layout; whether the tree is a leaf decides if its text stays. -/
lemma label_bare (t : Tree) : t.bare.label = t.label.bare t.children.isEmpty := by
  obtain ⟨l, cs⟩ := t
  rw [bare]
  rfl

/-- A comment has no words. -/
lemma tokens_of_comment {l : Label} (h : l.kind.isComment = true) (cs : List Tree) :
    (node l cs).tokens = [] := by
  cases cs <;> rw [tokens, if_pos h]

/-- The words of a tree that is no comment. -/
lemma tokens_node {l : Label} (h : l.kind.isComment = false) (cs : List Tree) :
    (node l cs).tokens =
      if cs.isEmpty then (if l.covers then [l.text] else []) else tokensOf cs := by
  cases cs with
  | nil => simp [tokens, h, Label.covers]
  | cons c cs => simp [tokens, tokensOf, h]

mutual

/-- Taking the layout away keeps the words. -/
theorem tokens_bare : ∀ t : Tree, t.bare.tokens = t.tokens
  | node l cs => by
    have hcs := tokensOf_bareOf cs
    rw [bare]
    cases hl : l.kind.isComment with
    | true => rw [tokens_of_comment hl, tokens_of_comment (l := l.bare cs.isEmpty) hl]
    | false =>
      rw [tokens_node hl, tokens_node (l := l.bare cs.isEmpty) hl]
      cases cs with
      | nil =>
        cases hcov : l.covers with
        | true => simp [Label.covers_bare, Label.text_bare_of_covers, hcov]
        | false => simp [Label.covers_bare, hcov]
      | cons c cs =>
        -- The row may have been nothing but comments; then there were no words in it.
        cases hrow : bareOf (c :: cs) with
        | nil =>
          rw [hrow, tokensOf] at hcs
          simp [Label.covers_bare, ← hcs]
        | cons d ds =>
          rw [hrow] at hcs
          simp [hcs]

/-- The words of some trees are the same without layout. -/
theorem tokensOf_bareOf : ∀ ts : List Tree, tokensOf (bareOf ts) = tokensOf ts
  | [] => by rw [bareOf_nil]
  | t :: ts => by
    have ht := tokens_bare t
    have hts := tokensOf_bareOf ts
    cases h : t.label.kind.isComment with
    | true =>
      obtain ⟨l, cs⟩ := t
      rw [bareOf_cons_of_comment h, hts, tokensOf, tokens_of_comment (l := l) h, List.nil_append]
    | false => rw [bareOf_cons h, tokensOf, tokensOf, ht, hts]

end

end Tree

/-- An ancestor without layout. -/
def Frame.bare (f : Frame) : Frame :=
  ⟨f.label.bare false, Tree.bareOf f.left, Tree.bareOf f.right⟩

namespace Node

variable {n m c p : Node} {f : Field}

/-- The node without layout. -/
def bare (n : Node) : Node :=
  ⟨n.focus.bare, n.above.map Frame.bare⟩

/-- A node keeps its kind. -/
@[simp] lemma kind_bare (n : Node) : n.bare.kind = n.kind := by
  rw [kind, label, bare, Tree.label_bare]
  rfl

/-- A node stays the same part of its parent. -/
@[simp] lemma field_bare (n : Node) : n.bare.label.field = n.label.field := by
  rw [label, bare, Tree.label_bare]
  rfl

/-- A node keeps whether it has a rule of its own. -/
@[simp] lemma named_bare (n : Node) : n.bare.label.named = n.label.named := by
  rw [label, bare, Tree.label_bare]
  rfl

/-- A name or a number keeps its text. -/
lemma text_bare (h : n.kind.isSpelled = true) : n.bare.text = n.text := by
  have hl : n.focus.label.kind.isSpelled = true := h
  rw [text, label, bare, Tree.label_bare, Label.bare, hl]
  rfl

/-- A node keeps its words. -/
@[simp] lemma tokens_bare (n : Node) : n.bare.tokens = n.tokens :=
  Tree.tokens_bare n.focus

/-! ### Going down -/

/-- The children of a node without layout are those of the node, comments left out. -/
lemma siblings_bare (l : Label) (above : List Frame) (left ts : List Tree) :
    siblings (l.bare false) (above.map Frame.bare) (Tree.bareOf left) (Tree.bareOf ts) =
      ((siblings l above left ts).filter (fun c => !c.kind.isComment)).map bare := by
  induction ts generalizing left with
  | nil => rw [Tree.bareOf_nil]; rfl
  | cons t ts ih =>
    have ih := ih (t :: left)
    -- The first of the row, as a node.
    have hkind : (⟨t, ⟨l, left, ts⟩ :: above⟩ : Node).kind = t.label.kind := rfl
    cases h : t.label.kind.isComment with
    | true =>
      rw [Tree.bareOf_cons_of_comment h] at ih ⊢
      rw [ih, siblings, List.filter_cons_of_neg (by simp [hkind, h])]
    | false =>
      rw [Tree.bareOf_cons h] at ih ⊢
      rw [siblings, ih, siblings, List.filter_cons_of_pos (by simp [hkind, h])]
      rfl

/-- The children of a bare node are those that are no comments. -/
lemma children_bare (n : Node) :
    n.bare.children = (n.children.filter (fun c => !c.kind.isComment)).map bare := by
  obtain ⟨⟨l, ts⟩, above⟩ := n
  have hrow := siblings_bare l above [] ts
  cases ts with
  | nil => rfl
  | cons t ts => exact hrow

/-! ### Going up -/

/-- Going up commutes with taking the layout away, from any node but a comment. -/
lemma plug_bare {t : Tree} (h : t.label.kind.isComment = false) (f : Frame) :
    (f.plug t).bare = f.bare.plug t.bare := by
  have hrow : (f.left.reverseAux (t :: f.right)).isEmpty = false := by
    rw [List.reverseAux_eq]
    simp
  rw [Frame.plug, Tree.bare, hrow, Tree.bareOf_reverseAux, Tree.bareOf_cons h]
  rfl

/-- The parent of a node that is no comment. -/
lemma parent?_bare (h : n.kind.isComment = false) : n.bare.parent? = n.parent?.map bare := by
  obtain ⟨t, above⟩ := n
  cases above with
  | nil => rfl
  | cons f above =>
    change some (⟨f.bare.plug t.bare, above.map Frame.bare⟩ : Node) =
      some ⟨(f.plug t).bare, above.map Frame.bare⟩
    rw [plug_bare h]

end Node

/-! ### Comments that are no parts -/

/-- No comment of the tree stands in a field of its parent. -/
def Tree.Plain (t : Tree) : Prop :=
  ∀ c ∈ (Node.ofTree t).preorder, c.kind.isComment = true → c.label.field = none

instance (t : Tree) : Decidable t.Plain :=
  inferInstanceAs (Decidable (∀ c ∈ (Node.ofTree t).preorder, _ → _))

namespace Node

variable {n c p : Node} {f : Field}

/-- The node stands in a tree whose comments are no parts. -/
def Plain (n : Node) : Prop :=
  ∃ t : Tree, t.Plain ∧ n ∈ (ofTree t).preorder

/-- A comment is no part of its parent. -/
lemma Plain.field_eq_none (h : n.Plain) (hn : n.kind.isComment = true) : n.label.field = none := by
  obtain ⟨t, ht, hmem⟩ := h
  exact ht n hmem hn

/-- What stands below a plain node is plain. -/
lemma Plain.of_mem_preorder (h : n.Plain) (hc : c ∈ n.preorder) : c.Plain := by
  obtain ⟨t, ht, hmem⟩ := h
  exact ⟨t, ht, mem_preorder_trans hmem hc⟩

/-- The children of a plain node are plain. -/
lemma Plain.child (h : n.Plain) (hc : c ∈ n.children) : c.Plain :=
  h.of_mem_preorder (mem_preorder_of_mem_children hc)

/-- The parent of a plain node is plain. -/
lemma Plain.parent (h : n.Plain) (hp : n ∈ p.children) : p.Plain := by
  obtain ⟨t, ht, hmem⟩ := h
  exact ⟨t, ht, mem_preorder_of_mem_children_ofTree hmem hp⟩

end Node

/-- Taking the layout away, as a recast: comments are left out, and words stay as they are. -/
def Recast.bare : Recast where
  map := Node.bare
  rename := id
  words := Set.univ
  Good := Node.Plain
  keeps n := !n.kind.isComment
  good_child := Node.Plain.child
  good_parent := Node.Plain.parent
  keeps_of_not_comment h := by rw [h]; rfl
  keeps_of_field {n f} h hf := by
    cases hk : n.kind.isComment with
    | false => rfl
    | true =>
      rw [h.field_eq_none hk] at hf
      cases hf
  kind_map := Node.kind_bare
  field_map := Node.field_bare
  named_map := Node.named_bare
  children_map := Node.children_bare
  parent?_map h := Node.parent?_bare (Bool.not_eq_true' _ ▸ h)
  text_map _ h := Node.text_bare h
  tokens_map n := by rw [Node.tokens_bare, List.map_id]
  rename_injOn := Set.injOn_id _
  text_mem_words _ _ := Set.mem_univ _
  tokens_mem_words _ _ _ := Set.mem_univ _
  fixed _ _ := ⟨Set.mem_univ _, rfl⟩

end LoopLint
