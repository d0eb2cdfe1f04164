import LoopLint.Proofs.Syntax.Bare
import Mathlib.Logic.Relation

/-!
# Grouping parentheses

`Parens` is a pair of grouping parentheses, with the comments that may stand inside.  Put around an
expression (`Parens.around`) it takes over the place of the expression among the parts of its
parent.

Taking parentheses away looks at the tree of a node only, and not at its field.  So the words that
are left, `Tree.core`, are the same for a tree and for the tree in parentheses
(`Parens.core_around`).  Each pair of parentheses is one step of a relation (`Node.Peels`) that
leads down the tree, and `Node.unwrap` goes on until there is no further step.
-/

namespace LoopLint

/-- Whether the tree can be the content of parentheses: the grammar has a rule for it, and it is no
comment. -/
def Tree.isContent (t : Tree) : Bool :=
  t.label.named && !t.label.kind.isComment

/-- The tree, but in no field. -/
def Tree.detached (t : Tree) : Tree :=
  .node { t.label with field := none } t.children

/-- A pair of grouping parentheses: what is known of the node, and the other trees below it, which
are symbols and comments. -/
structure Parens where
  label : Label
  before : List Tree
  after : List Tree
  kind_eq : label.kind = .parenthesized
  isContent_before : ∀ t ∈ before, t.isContent = false
  isContent_after : ∀ t ∈ after, t.isContent = false

/-- The tree in parentheses, which stand in the field of the tree. -/
def Parens.around (w : Parens) (t : Tree) : Tree :=
  .node { w.label with field := t.label.field } (w.before ++ t.detached :: w.after)

namespace Tree

/-- A tree without children, which covers just its text. -/
def leaf (kind : Kind) (field : Option Field) (named : Bool) (text : String) : Tree :=
  .node ⟨kind, field, named, ⟨0, text.utf8ByteSize⟩, ⟨0, 0⟩, ⟨0, 0⟩, text⟩ []

/-- A tree that is known by its kind and by what is below it. -/
def branch (kind : Kind) (field : Option Field) (children : List Tree) : Tree :=
  .node ⟨kind, field, true, ⟨0, 1⟩, ⟨0, 0⟩, ⟨0, 0⟩, ""⟩ children

/-- A tree is taken out of its field once. -/
@[simp] lemma detached_detached (t : Tree) : t.detached.detached = t.detached := rfl

/-- Whether a tree can stand in parentheses does not depend on its field. -/
@[simp] lemma isContent_detached (t : Tree) : t.detached.isContent = t.isContent := rfl

/-- The words of a tree do not depend on its field. -/
@[simp] lemma tokens_detached (t : Tree) : t.detached.tokens = t.tokens := by
  obtain ⟨l, cs⟩ := t
  cases cs with
  | nil => rw [detached, children, tokens, tokens]; rfl
  | cons c cs => rw [detached, children, tokens, tokens]; rfl

/-- The words of some trees are those of one behind those of the other. -/
lemma tokensOf_eq (ts : List Tree) : tokensOf ts = ts.flatMap tokens := by
  induction ts with
  | nil => rw [tokensOf, List.flatMap_nil]
  | cons t ts ih => rw [tokensOf, ih, List.flatMap_cons]

/-- The words of a tree with children are those of its children. -/
lemma tokens_eq_flatMap {t : Tree} (ht : t.label.kind.isComment = false) (hne : t.children ≠ []) :
    t.tokens = t.children.flatMap tokens := by
  obtain ⟨l, cs⟩ := t
  have hl : l.kind.isComment = false := ht
  have hcs : ¬ cs.isEmpty = true := mt List.isEmpty_iff.mp hne
  rw [tokens_node hl, if_neg hcs, tokensOf_eq]
  rfl

end Tree

namespace Node

variable {n m c : Node}

/-- A named node that is no comment can stand in parentheses. -/
lemma isContent_of_named (hnamed : n.label.named = true) (hcomment : n.kind.isComment = false) :
    n.focus.isContent = true := by
  have hlabel : n.focus.label.named = true := hnamed
  have hkind : n.focus.label.kind.isComment = false := hcomment
  rw [Tree.isContent, hlabel, hkind]
  rfl

/-! ### What is left without parentheses -/

/-- The first named child, as a tree. -/
lemma map_focus_head?_namedChildren (n : Node) :
    n.namedChildren.head?.map (·.focus) = n.focus.children.find? Tree.isContent := by
  rw [← List.head?_map, ← List.head?_filter, ← map_focus_children, List.filter_map]
  rfl

/-- Nodes with the same tree, but for the field, are of one kind. -/
lemma kind_congr (h : m.focus.detached = n.focus.detached) : m.kind = n.kind :=
  congrArg (fun t => t.label.kind) h

/-- Nodes with the same tree, but for the field, start with the same named child. -/
lemma head?_namedChildren_congr (h : m.focus.detached = n.focus.detached) :
    m.namedChildren.head?.map (·.focus) = n.namedChildren.head?.map (·.focus) := by
  have hchildren : m.focus.children = n.focus.children := congrArg (fun t => t.children) h
  rw [map_focus_head?_namedChildren, hchildren, ← map_focus_head?_namedChildren]

/-- Nodes with the same tree have the same tree in their parentheses. -/
lemma detached_focus_unwrap_congr (h : m.focus.detached = n.focus.detached) :
    m.unwrap.focus.detached = n.unwrap.focus.detached := by
  fun_induction unwrap n generalizing m with
  | case1 n hn inner hinner ih =>
    have hhead := head?_namedChildren_congr h
    rw [hinner, Option.map_some, Option.map_eq_some_iff] at hhead
    obtain ⟨inner', hinner', hfocus⟩ := hhead
    rw [unwrap_eq, if_pos ((kind_congr h).trans hn), hinner']
    exact ih (congrArg Tree.detached hfocus)
  | case2 n hn hnone =>
    have hhead := head?_namedChildren_congr h
    rw [hnone, Option.map_none, Option.map_eq_none_iff] at hhead
    rw [unwrap_eq, if_pos ((kind_congr h).trans hn), hhead]
    exact h
  | case3 n hn =>
    rw [unwrap_eq, if_neg ((kind_congr h).trans_ne hn)]
    exact h

end Node

/-- The words of a tree without its grouping parentheses. -/
def Tree.core (t : Tree) : List String :=
  (Node.ofTree t).unwrap.tokens

/-- The words without parentheses do not depend on the field. -/
lemma Tree.core_congr {t u : Tree} (h : t.detached = u.detached) : t.core = u.core := by
  have hcongr : (Node.ofTree t).unwrap.focus.detached = (Node.ofTree u).unwrap.focus.detached :=
    Node.detached_focus_unwrap_congr h
  rw [core, core, Node.tokens, ← tokens_detached, hcongr, tokens_detached]
  rfl

/-- The words of a node without its parentheses depend on its tree only. -/
lemma Node.tokens_unwrap (n : Node) : n.unwrap.tokens = n.focus.core := by
  have hcongr : n.unwrap.focus.detached = (Node.ofTree n.focus).unwrap.focus.detached :=
    detached_focus_unwrap_congr rfl
  rw [Tree.core, tokens, tokens, ← Tree.tokens_detached, hcongr, Tree.tokens_detached]

namespace Parens

variable (w : Parens) {t : Tree}

/-- What stands in the parentheses is the first thing there that is no symbol and no comment. -/
lemma find?_isContent_around (ht : t.isContent = true) :
    (w.around t).children.find? Tree.isContent = some t.detached := by
  have hbefore : w.before.find? Tree.isContent = none := by
    rw [List.find?_eq_none]
    intro u hu
    rw [w.isContent_before u hu]
    exact Bool.false_ne_true
  rw [around, Tree.children, List.find?_append, hbefore, Option.none_or,
    List.find?_cons_of_pos (by rwa [Tree.isContent_detached])]

/-- Parentheses around a tree do not change its words without parentheses. -/
theorem core_around (ht : t.isContent = true) : (w.around t).core = t.core := by
  have hkind : (Node.ofTree (w.around t)).kind = .parenthesized := w.kind_eq
  have hhead : (Node.ofTree (w.around t)).namedChildren.head?.map (·.focus) = some t.detached := by
    rw [Node.map_focus_head?_namedChildren]
    exact w.find?_isContent_around ht
  obtain ⟨inner, hinner, hfocus⟩ := Option.map_eq_some_iff.mp hhead
  rw [Tree.core, Node.unwrap_eq, if_pos hkind, hinner, Option.map_some, Option.getD_some,
    Node.tokens_unwrap, hfocus]
  exact Tree.core_congr (Tree.detached_detached t)

end Parens

namespace Node

variable {n m c : Node}

/-! ### Taking parentheses away step by step -/

/-- `n` is a pair of parentheses, and `m` is the first thing in it that is no symbol and no
comment. -/
def Peels (n m : Node) : Prop :=
  n.kind = .parenthesized ∧ n.namedChildren.head? = some m

/-- What stands in parentheses is a child of theirs. -/
lemma Peels.mem_children (h : n.Peels m) : m ∈ n.children :=
  (List.mem_filter.mp (List.mem_of_mem_head? h.2)).1

/-- There are no infinitely many pairs of parentheses around anything. -/
lemma wellFounded_peels : WellFounded fun m n : Node => n.Peels m :=
  Subrelation.wf (fun h => sizeOf_focus_lt_of_head?_namedChildren h.2)
    (measure fun n : Node => sizeOf n.focus).wf

/-- Taking all parentheses away is taking them away pair by pair. -/
lemma peels_unwrap (n : Node) : Relation.ReflTransGen Peels n n.unwrap := by
  fun_induction unwrap n with
  | case1 n hn inner hinner ih => exact .head ⟨hn, hinner⟩ ih
  | case2 n _ _ => exact .refl
  | case3 n _ => exact .refl

/-- Where no parentheses can be taken away, nothing is. -/
lemma unwrap_eq_self (h : ∀ m, ¬ n.Peels m) : n.unwrap = n := by
  rcases Relation.ReflTransGen.cases_head (peels_unwrap n) with heq | ⟨m, hm, -⟩
  · exact heq.symm
  · exact absurd hm (h m)

/-- After all parentheses are taken away, none can be. -/
lemma not_peels_unwrap (n m : Node) : ¬ n.unwrap.Peels m := by
  fun_induction unwrap n with
  | case1 _ _ _ _ ih => exact ih
  | case2 n hn hnone =>
    rintro ⟨-, hm⟩
    rw [hnone] at hm
    cases hm
  | case3 n hn => exact fun h => hn h.1

/-- What is left without some parentheses stands inside them. -/
lemma mem_preorder_of_peels (h : Relation.ReflTransGen Peels n m) : m ∈ n.preorder := by
  induction h with
  | refl => exact self_mem_preorder n
  | tail _ hstep ih => exact mem_preorder_trans ih (mem_preorder_of_mem_children hstep.mem_children)

/-- Parentheses that are not taken away have nothing in them. -/
lemma namedChildren_unwrap (h : n.unwrap.kind = .parenthesized) : n.unwrap.namedChildren = [] := by
  cases hrow : n.unwrap.namedChildren with
  | nil => rfl
  | cons m ms =>
    refine absurd ⟨h, ?_⟩ (not_peels_unwrap n m)
    rw [hrow]
    rfl

/-! ### Counting words -/

/-- The words of a node with children are those of its children. -/
lemma tokens_eq_flatMap {n c : Node} (hn : n.kind.isComment = false) (hc : c ∈ n.children) :
    n.tokens = n.children.flatMap tokens := by
  have hne : n.focus.children ≠ [] := List.ne_nil_of_mem (focus_mem_of_mem_children hc)
  rw [tokens, Tree.tokens_eq_flatMap hn hne, ← map_focus_children, List.flatMap_map]
  rfl

/-- Two children have no more words together than their parent. -/
lemma length_tokens_add_le {n c d : Node} (hn : n.kind.isComment = false) (hc : c ∈ n.children)
    (hd : d ∈ n.children) (hne : d ≠ c) : c.tokens.length + d.tokens.length ≤ n.tokens.length := by
  obtain ⟨as, bs, hrow⟩ := List.append_of_mem hc
  have hmem : ∀ {l : List Node}, d ∈ l → d.tokens.length ≤ (l.flatMap tokens).length := by
    intro l hl
    exact (List.sublist_flatten_of_mem (List.mem_map_of_mem hl)).length_le
  rw [tokens_eq_flatMap hn hc, hrow, List.flatMap_append, List.flatMap_cons, List.length_append,
    List.length_append]
  rw [hrow, List.mem_append, List.mem_cons] at hd
  rcases hd with hd | rfl | hd
  · have := hmem hd
    omega
  · exact absurd rfl hne
  · have := hmem hd
    omega

/-- A child has no more words than its parent. -/
lemma length_tokens_le {n c : Node} (hn : n.kind.isComment = false) (hc : c ∈ n.children) :
    c.tokens.length ≤ n.tokens.length := by
  rw [tokens_eq_flatMap hn hc]
  exact (List.sublist_flatten_of_mem (List.mem_map_of_mem hc)).length_le

/-- `m` is a part of `n`, or a part of a part and so on; no comment is on the way. -/
def IsWithin (m n : Node) : Prop :=
  Via (fun t => t.kind.isComment = false) n m

/-- A node inside another one has no more words than that. -/
lemma length_tokens_le_of_isWithin {n m : Node} (h : m.IsWithin n) :
    m.tokens.length ≤ n.tokens.length := by
  induction n using childrenInduction with
  | step n ih =>
    rcases mem_preorder_iff.mp h.1 with rfl | ⟨c, hc, hm⟩
    · exact Nat.le_refl _
    · have hlower : m.IsWithin c :=
        ⟨hm, fun t ht hmt => h.2 t (mem_preorder_of_mem_preorder_child hc ht) hmt⟩
      rcases h.2 n (self_mem_preorder n) h.1 with rfl | hn
      · exact Nat.le_refl _
      · exact Nat.le_trans (ih c hc hlower) (length_tokens_le hn hc)

/-- Without parentheses there are no more words than with them. -/
lemma length_tokens_unwrap_le (n : Node) : n.unwrap.tokens.length ≤ n.tokens.length := by
  fun_induction unwrap n with
  | case1 n hn inner hinner ih =>
    have hmem : n.Peels inner := ⟨hn, hinner⟩
    exact Nat.le_trans ih (length_tokens_le (by rw [hn]; rfl) hmem.mem_children)
  | case2 n _ _ => exact Nat.le_refl _
  | case3 n _ => exact Nat.le_refl _

end Node
end LoopLint
