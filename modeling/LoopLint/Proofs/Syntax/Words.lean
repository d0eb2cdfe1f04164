import LoopLint.Proofs.Syntax.Grouping
import Mathlib.Data.List.Perm.Basic

/-!
# Words and where they stand

The words of a node are the texts of some leaves in its subtree: of those that cover some text and
are not part of a comment (`Node.HasWord`).  `Tree.leaves` lists what is known of all leaves outside
of comments, and `Node.leaves` the leaves themselves.

In a tree whose ranges are properly nested (`Node.SpansNest`) such leaves stand one behind the
other.  So the leaves that give words can be listed in one way only, in the order of the text
(`Node.ListsWords`), and the words of a node are their texts in that order
(`Node.ListsWords.tokens_eq`).
-/

namespace LoopLint

/-! ### Leaves -/

namespace Tree

mutual

/-- What is known of the leaves of a tree, from left to right.  Comments are left out. -/
def leaves : Tree → List Label
  | node l cs =>
    if l.kind.isComment then []
    else match cs with
      | [] => [l]
      | c :: cs => leaves c ++ leavesOf cs

/-- What is known of the leaves of several trees, one after the other. -/
def leavesOf : List Tree → List Label
  | [] => []
  | t :: ts => leaves t ++ leavesOf ts

end

variable {t : Tree}

/-- The leaves of some trees are those of one behind those of the other. -/
lemma leavesOf_eq (ts : List Tree) : leavesOf ts = ts.flatMap leaves := by
  induction ts with
  | nil => rw [leavesOf, List.flatMap_nil]
  | cons t ts ih => rw [leavesOf, ih, List.flatMap_cons]

/-- A comment has no leaves that count. -/
lemma leaves_of_comment (h : t.label.kind.isComment = true) : t.leaves = [] := by
  obtain ⟨l, cs⟩ := t
  have hl : l.kind.isComment = true := h
  cases cs <;> rw [leaves, if_pos hl]

/-- A tree without children is its own leaf. -/
lemma leaves_of_leaf (h : t.label.kind.isComment = false) (hleaf : t.children = []) :
    t.leaves = [t.label] := by
  obtain ⟨l, cs⟩ := t
  obtain rfl : cs = [] := hleaf
  have hl : l.kind.isComment = false := h
  rw [leaves, hl]
  rfl

/-- The leaves of a tree with children are those of its children. -/
lemma leaves_eq_flatMap (h : t.label.kind.isComment = false) (hne : t.children ≠ []) :
    t.leaves = t.children.flatMap leaves := by
  obtain ⟨l, cs⟩ := t
  obtain ⟨c, cs, rfl⟩ := List.exists_cons_of_ne_nil (show cs ≠ [] from hne)
  have hl : l.kind.isComment = false := h
  rw [leaves, hl, if_neg Bool.false_ne_true, leavesOf_eq]
  rfl

end Tree

/-- The words at some leaves: the texts of those that cover any. -/
def Label.words (ls : List Label) : List String :=
  (ls.filter (·.covers)).map (·.text)

/-- No leaves have no words. -/
@[simp] lemma Label.words_nil : words [] = [] := rfl

/-- A leaf is a word if it covers some text. -/
lemma Label.words_singleton (l : Label) : words [l] = if l.covers then [l.text] else [] := by
  cases h : l.covers <;> simp [words, h]

/-- The words of two rows of leaves stand one behind the other. -/
lemma Label.words_append (ls ms : List Label) : words (ls ++ ms) = words ls ++ words ms := by
  rw [words, List.filter_append, List.map_append, words, words]

mutual

/-- The words of a tree are those at its leaves. -/
theorem Tree.tokens_eq_words : ∀ t : Tree, t.tokens = Label.words t.leaves
  | node l cs => by
    have hcs := tokensOf_eq_words cs
    have hlabel : (node l cs).label.kind.isComment = l.kind.isComment := rfl
    cases hl : l.kind.isComment with
    | true => rw [tokens_of_comment hl, leaves_of_comment (hlabel.trans hl), Label.words_nil]
    | false =>
      rw [tokens_node hl]
      by_cases hleaf : cs = []
      · rw [leaves_of_leaf (hlabel.trans hl) hleaf, Label.words_singleton, hleaf]
        rfl
      · rw [leaves_eq_flatMap (hlabel.trans hl) hleaf, ← leavesOf_eq,
          if_neg (mt List.isEmpty_iff.mp hleaf)]
        exact hcs

/-- The words of some trees are those of their leaves. -/
theorem Tree.tokensOf_eq_words : ∀ ts : List Tree, tokensOf ts = Label.words (leavesOf ts)
  | [] => by rw [tokensOf, leavesOf, Label.words_nil]
  | t :: ts => by
    rw [tokensOf, leavesOf, Label.words_append, tokens_eq_words t, tokensOf_eq_words ts]

end

namespace Node

variable {n m w : Node} {ws us : List Node}

/-- The leaves in the subtree of a node, from left to right.  Comments are left out. -/
def leaves (n : Node) : List Node :=
  if n.kind.isComment then []
  else if n.children.isEmpty then [n]
  else n.children.attach.flatMap (fun c => leaves c.1)
termination_by sizeOf n.focus
decreasing_by exact sizeOf_focus_lt_of_mem_children c.2

/-- A comment has no leaves that count. -/
lemma leaves_of_comment (h : n.kind.isComment = true) : n.leaves = [] := by
  rw [leaves, if_pos h]

/-- A node without children is its own leaf. -/
lemma leaves_of_leaf (h : n.kind.isComment = false) (hleaf : n.children = []) : n.leaves = [n] := by
  rw [leaves, h, hleaf]
  rfl

/-- The leaves of a node with children are those of its children. -/
lemma leaves_eq_flatMap (h : n.kind.isComment = false) (hne : n.children ≠ []) :
    n.leaves = n.children.flatMap leaves := by
  have hrow : ¬ n.children.isEmpty = true := mt List.isEmpty_iff.mp hne
  rw [leaves, h, if_neg Bool.false_ne_true, if_neg hrow,
    List.flatMap_subtype (g := leaves) (fun _ _ => rfl), List.unattach_attach]

/-- What is known of the leaves of a node depends on its tree only. -/
lemma map_label_leaves (n : Node) : n.leaves.map label = n.focus.leaves := by
  induction n using childrenInduction with
  | step n ih =>
    have hrow : n.children = [] ↔ n.focus.children = [] := by
      rw [← map_focus_children, List.map_eq_nil_iff]
    cases hn : n.kind.isComment with
    | true => rw [leaves_of_comment hn, Tree.leaves_of_comment hn, List.map_nil]
    | false =>
      by_cases hleaf : n.children = []
      · rw [leaves_of_leaf hn hleaf, Tree.leaves_of_leaf hn (hrow.mp hleaf)]
        rfl
      · rw [leaves_eq_flatMap hn hleaf, Tree.leaves_eq_flatMap hn (mt hrow.mpr hleaf),
          List.map_flatMap, ← map_focus_children, List.flatMap_map]
        exact List.flatMap_congr ih

/-- A leaf is listed if there is no comment at it or above it. -/
lemma mem_leaves_iff : w ∈ n.leaves ↔ w ∈ n.preorder ∧ w.children = [] ∧
    ∀ t ∈ n.preorder, w ∈ t.preorder → t.kind.isComment = false := by
  induction n using childrenInduction with
  | step n ih =>
    cases hn : n.kind.isComment with
    | true =>
      rw [leaves_of_comment hn]
      refine iff_of_false List.not_mem_nil ?_
      rintro ⟨hmem, -, hplain⟩
      have hself := hplain n (self_mem_preorder n) hmem
      rw [hn] at hself
      cases hself
    | false =>
      by_cases hleaf : n.children = []
      · have hpre : n.preorder = [n] := by rw [preorder_eq, hleaf, List.flatMap_nil]
        rw [leaves_of_leaf hn hleaf, hpre]
        simp only [List.mem_singleton]
        constructor
        · rintro rfl
          refine ⟨rfl, hleaf, ?_⟩
          rintro t rfl -
          exact hn
        · exact fun h => h.1
      · rw [leaves_eq_flatMap hn hleaf, List.mem_flatMap]
        constructor
        · rintro ⟨c, hc, hw⟩
          obtain ⟨hmem, hchildren, hplain⟩ := (ih c hc).mp hw
          refine ⟨mem_preorder_of_mem_preorder_child hc hmem, hchildren, fun t ht hwt => ?_⟩
          -- A node above the leaf is the root or stands in the same child.
          rcases mem_preorder_iff.mp ht with rfl | ⟨d, hd, htd⟩
          · exact hn
          · obtain rfl := eq_of_mem_preorder_children hc hd hmem (mem_preorder_trans htd hwt)
            exact hplain t htd hwt
        · rintro ⟨hmem, hchildren, hplain⟩
          rcases mem_preorder_iff.mp hmem with rfl | ⟨c, hc, hwc⟩
          · exact absurd hchildren hleaf
          · refine ⟨c, hc, (ih c hc).mpr ⟨hwc, hchildren, fun t ht hwt => ?_⟩⟩
            exact hplain t (mem_preorder_of_mem_preorder_child hc ht) hwt

/-! ### Words -/

/-- `w` gives a word of `n`: it is a leaf in the subtree, it covers some text, and no node from `n`
down to `w` is a comment. -/
structure HasWord (n w : Node) : Prop where
  mem_preorder : w ∈ n.preorder
  leaf : w.children = []
  covers : w.label.range.start < w.label.range.stop
  plain : ∀ t ∈ n.preorder, w ∈ t.preorder → t.kind.isComment = false

/-- The leaves that give words. -/
def wordLeaves (n : Node) : List Node :=
  n.leaves.filter (·.label.covers)

/-- The leaves with words are the words in the node. -/
lemma mem_wordLeaves_iff : w ∈ n.wordLeaves ↔ n.HasWord w := by
  rw [wordLeaves, List.mem_filter, mem_leaves_iff, Label.covers, decide_eq_true_iff]
  constructor
  · rintro ⟨⟨hmem, hleaf, hplain⟩, hcovers⟩
    exact ⟨hmem, hleaf, hcovers, hplain⟩
  · intro h
    exact ⟨⟨h.mem_preorder, h.leaf, h.plain⟩, h.covers⟩

/-- The words of a node are the texts of its leaves with words. -/
lemma tokens_eq_map_text (n : Node) : n.tokens = n.wordLeaves.map text := by
  rw [tokens, Tree.tokens_eq_words, ← map_label_leaves, Label.words, List.filter_map, List.map_map]
  rfl

/-! ### Order -/

/-- The ranges in the subtree are properly nested: those of the children of a node lie in the range
of the node, and each of them ends before the next one starts. -/
def SpansNest (n : Node) : Prop :=
  ∀ m ∈ n.preorder,
    (∀ c ∈ m.children, m.label.range.start ≤ c.label.range.start ∧
      c.label.range.stop ≤ m.label.range.stop) ∧
    m.children.Pairwise fun c d => c.label.range.stop ≤ d.label.range.start

instance (n : Node) : Decidable n.SpansNest :=
  inferInstanceAs (Decidable (∀ m ∈ n.preorder, _ ∧ _))

/-- Where the nodes of a tree nest, those below a node do. -/
lemma SpansNest.of_mem_preorder (h : n.SpansNest) (hm : m ∈ n.preorder) : m.SpansNest :=
  fun r hr => h r (mem_preorder_trans hm hr)

/-- All nodes of a subtree lie in its range. -/
lemma SpansNest.inside (h : n.SpansNest) (hm : m ∈ n.preorder) :
    n.label.range.start ≤ m.label.range.start ∧ m.label.range.stop ≤ n.label.range.stop := by
  induction n using childrenInduction with
  | step n ih =>
    rcases mem_preorder_iff.mp hm with rfl | ⟨c, hc, hmc⟩
    · exact ⟨Nat.le_refl _, Nat.le_refl _⟩
    · have hchild := (h n (self_mem_preorder n)).1 c hc
      have hlower := ih c hc (h.of_mem_preorder (mem_preorder_of_mem_children hc)) hmc
      omega

/-- The leaves stand one behind the other. -/
lemma SpansNest.pairwise_leaves (h : n.SpansNest) :
    n.leaves.Pairwise fun v w => v.label.range.stop ≤ w.label.range.start := by
  induction n using childrenInduction with
  | step n ih =>
    have hchild : ∀ c ∈ n.children, c.SpansNest := fun c hc =>
      h.of_mem_preorder (mem_preorder_of_mem_children hc)
    cases hn : n.kind.isComment with
    | true =>
      rw [leaves_of_comment hn]
      exact List.Pairwise.nil
    | false =>
      by_cases hleaf : n.children = []
      · rw [leaves_of_leaf hn hleaf]
        exact List.pairwise_singleton _ n
      · rw [leaves_eq_flatMap hn hleaf, List.pairwise_flatMap]
        refine ⟨fun c hc => ih c hc (hchild c hc), ?_⟩
        refine (h n (self_mem_preorder n)).2.imp_of_mem fun {c d} hc hd hcd v hv w hw => ?_
        -- `v` lies in the range of `c`, and `w` in that of `d`, which starts where `c` has ended
        have hvc := (hchild c hc).inside (mem_leaves_iff.mp hv).1
        have hwd := (hchild d hd).inside (mem_leaves_iff.mp hw).1
        omega

/-- The leaves that give the words of `n`, in the order of the text: exactly these leaves, each of
them once, at strictly increasing and disjoint places in the range of `n`. -/
structure ListsWords (n : Node) (ws : List Node) : Prop where
  mem_iff : ∀ w, w ∈ ws ↔ n.HasWord w
  nodup : ws.Nodup
  increasing : ws.Pairwise fun v w => v.label.range.start < w.label.range.start
  disjoint : ws.Pairwise fun v w => v.label.range.stop ≤ w.label.range.start
  inside : ∀ w ∈ ws, n.label.range.start ≤ w.label.range.start ∧
    w.label.range.stop ≤ n.label.range.stop

/-- Where nodes nest, the leaves with words list the words from left to right. -/
lemma SpansNest.listsWords (h : n.SpansNest) : n.ListsWords n.wordLeaves := by
  have hdisjoint : n.wordLeaves.Pairwise fun v w => v.label.range.stop ≤ w.label.range.start :=
    h.pairwise_leaves.filter _
  have hincreasing : n.wordLeaves.Pairwise fun v w =>
      v.label.range.start < w.label.range.start := by
    refine hdisjoint.imp_of_mem fun hv _ hvw => ?_
    exact Nat.lt_of_lt_of_le (mem_wordLeaves_iff.mp hv).covers hvw
  refine ⟨fun w => mem_wordLeaves_iff, ?_, hincreasing, hdisjoint, fun w hw => ?_⟩
  · refine hincreasing.imp ?_
    rintro v w hvw rfl
    exact Nat.lt_irrefl _ hvw
  · exact h.inside (mem_wordLeaves_iff.mp hw).mem_preorder

/-- There is one way to list the leaves in the order of the text. -/
lemma ListsWords.unique (hws : n.ListsWords ws) (hus : n.ListsWords us) : ws = us := by
  have hperm : ws.Perm us := by
    rw [List.perm_ext_iff_of_nodup hws.nodup hus.nodup]
    exact fun w => (hws.mem_iff w).trans (hus.mem_iff w).symm
  refine hperm.eq_of_pairwise (fun v w _ _ hvw hwv => ?_) hws.increasing hus.increasing
  exact absurd (Nat.lt_trans hvw hwv) (Nat.lt_irrefl _)

/-- The words of a node are the texts of these leaves. -/
theorem ListsWords.tokens_eq (h : n.SpansNest) (hws : n.ListsWords ws) :
    n.tokens = ws.map text := by
  rw [hws.unique h.listsWords, tokens_eq_map_text]

/-- Two nodes have the same words if and only if nowhere the texts of their leaves differ. -/
lemma ListsWords.tokens_beq_eq_false_iff (hn : n.SpansNest) (hm : m.SpansNest)
    (hws : n.ListsWords ws) (hus : m.ListsWords us) :
    (n.tokens == m.tokens) = false ↔ ∃ i : Nat, ws[i]?.map text ≠ us[i]?.map text := by
  rw [hws.tokens_eq hn, hus.tokens_eq hm, beq_eq_false_iff_ne, ne_eq, List.ext_getElem?_iff,
    not_forall]
  simp only [List.getElem?_map, ne_eq]

end Node
end LoopLint
