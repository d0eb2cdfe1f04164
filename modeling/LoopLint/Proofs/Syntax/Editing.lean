import LoopLint.Proofs.Syntax.Cursor
import LoopLint.Proofs.Syntax.Spans
import LoopLint.Proofs.Syntax.Words

/-!
# Words of an edited text

When a piece of a text is replaced by another one (`Text.Edit`), what stands before the piece stays
and what stands behind it moves.  A tree of the new text has the shape of the old one if its leaves
are the old leaves, each of them at its new place (`Tree.Matched`).

* If the piece lies between the leaves, all leaves keep their texts, so the words stay the same.
  The same is true if a comment is put among the children of a node.  These are the two ways to
  change the layout (`Tree.Relaid`).
* If the piece is a leaf that gives a word, the word is lost, and the words are others.

The main result, `Node.tokens_faithful`, puts this together with what the words of a node are and
how a cursor collects them.
-/

namespace LoopLint

/-! ### Pieces that are replaced -/

namespace Text

/-- A piece of a text that is replaced by another one. -/
structure Edit where
  before : List Char
  old : List Char
  new : List Char
  after : List Char

namespace Edit

variable {e : Edit} {l l' : Label}

/-- The text with the old piece. -/
def source (e : Edit) : List Char :=
  e.before ++ e.old ++ e.after

/-- The text with the new piece. -/
def target (e : Edit) : List Char :=
  e.before ++ e.new ++ e.after

/-- The place of the old piece. -/
def place (e : Edit) : TextRange :=
  ⟨byteLength e.before, byteLength (e.before ++ e.old)⟩

/-- The place of the new piece. -/
def newPlace (e : Edit) : TextRange :=
  ⟨byteLength e.before, byteLength (e.before ++ e.new)⟩

/-- A node that lies clear of the piece: it stays if it ends before the piece, and if it starts
behind the piece it moves by the difference. -/
def Keeps (e : Edit) (l l' : Label) : Prop :=
  l.ReadFrom e.source ∧ l'.ReadFrom e.target ∧
    (l.range.stop ≤ e.place.start ∧ l'.range = l.range ∨
      e.place.stop ≤ l.range.start ∧
        l'.range.start + e.place.stop = l.range.start + e.newPlace.stop ∧
        l'.range.stop + e.place.stop = l.range.stop + e.newPlace.stop)

/-- A node that covers just the piece, and covers the new piece then. -/
def Replaces (e : Edit) (l l' : Label) : Prop :=
  l.ReadFrom e.source ∧ l'.ReadFrom e.target ∧ l.range = e.place ∧ l'.range = e.newPlace

/-- A node lies clear of the piece or covers just the piece. -/
def Changes (e : Edit) (l l' : Label) : Prop :=
  e.Keeps l l' ∨ e.Replaces l l'

instance (e : Edit) : DecidableRel e.Keeps := fun l l' =>
  inferInstanceAs (Decidable (l.ReadFrom e.source ∧ l'.ReadFrom e.target ∧
    (l.range.stop ≤ e.place.start ∧ l'.range = l.range ∨
      e.place.stop ≤ l.range.start ∧
        l'.range.start + e.place.stop = l.range.start + e.newPlace.stop ∧
        l'.range.stop + e.place.stop = l.range.stop + e.newPlace.stop)))

instance (e : Edit) : DecidableRel e.Replaces := fun l l' =>
  inferInstanceAs (Decidable (l.ReadFrom e.source ∧ l'.ReadFrom e.target ∧ l.range = e.place ∧
    l'.range = e.newPlace))

instance (e : Edit) : DecidableRel e.Changes := fun l l' =>
  inferInstanceAs (Decidable (e.Keeps l l' ∨ e.Replaces l l'))

/-- A node clear of the piece keeps its word, if it has one. -/
lemma Keeps.words_eq (h : e.Keeps l l') : Label.words [l'] = Label.words [l] := by
  obtain ⟨hread, hread', hrange⟩ := h
  have hcovers : l'.covers = l.covers := by
    rw [Label.covers, Label.covers, decide_eq_decide]
    rcases hrange with ⟨-, heq⟩ | ⟨-, hstart, hstop⟩
    · rw [heq]
    · omega
  rw [Label.words_singleton, Label.words_singleton, hcovers]
  cases hl : l.covers with
  | false => rfl
  | true =>
    have hle : l.range.start < l.range.stop := by simpa [Label.covers] using hl
    have hslice : slice e.target l'.range = slice e.source l.range := by
      rcases hrange with ⟨hstop, heq⟩ | ⟨hbehind, hstart, hstop⟩
      · have hoffset := hread.1
        have hoffset' := hread'.1
        rw [source, List.append_assoc] at hoffset
        rw [heq, target, List.append_assoc] at hoffset'
        rw [heq, source, target, List.append_assoc, List.append_assoc,
          slice_append_of_le hoffset (Nat.le_of_lt hle) hstop,
          slice_append_of_le hoffset' (Nat.le_of_lt hle) hstop]
      · -- Both ends are as far behind the piece as before.
        obtain ⟨i, hi⟩ := Nat.exists_eq_add_of_le hbehind
        obtain ⟨j, hj⟩ := Nat.exists_eq_add_of_le (Nat.le_trans hbehind (Nat.le_of_lt hle))
        have hold : l.range = ⟨e.place.stop + i, e.place.stop + j⟩ := by
          rw [← hi, ← hj]
        have hi' : l'.range.start = e.newPlace.stop + i := by omega
        have hj' : l'.range.stop = e.newPlace.stop + j := by omega
        have hnew : l'.range = ⟨e.newPlace.stop + i, e.newPlace.stop + j⟩ := by
          rw [← hi', ← hj']
        rw [hold, hnew, source, target, place, newPlace, slice_byteLength_add,
          slice_byteLength_add]
    rw [hread'.2.2.2.2, hread.2.2.2.2, hslice]

/-- The words at a node that covers just a piece of the text. -/
lemma words_of_middle {as cs bs : List Char} (hread : l.ReadFrom (as ++ cs ++ bs))
    (hrange : l.range = ⟨byteLength as, byteLength (as ++ cs)⟩) :
    Label.words [l] = if cs = [] then [] else [String.ofList cs] := by
  rw [Label.words_singleton, hread.2.2.2.2, hrange, slice_middle, Label.covers, hrange]
  by_cases hcs : cs = []
  · simp [hcs]
  · have hpos := byteLength_pos hcs
    simp [hcs, byteLength_append, hpos]

/-- Where the piece is replaced by another one, it occurs less often among the words than before. -/
lemma Replaces.count_lt (h : e.Replaces l l') (hold : e.old ≠ []) (hne : e.new ≠ e.old) :
    (Label.words [l']).count (String.ofList e.old) <
      (Label.words [l]).count (String.ofList e.old) := by
  obtain ⟨hread, hread', hrange, hrange'⟩ := h
  have hnone : String.ofList e.old ∉ Label.words [l'] := by
    rw [words_of_middle hread' hrange']
    split
    · exact List.not_mem_nil
    · rw [List.mem_singleton, String.ofList_inj]
      exact hne.symm
  rw [List.count_eq_zero_of_not_mem hnone, words_of_middle hread hrange, if_neg hold,
    List.count_singleton_self]
  exact Nat.zero_lt_one

/-- A node with the place of the piece does not lie clear of it. -/
lemma Keeps.range_ne_place (h : e.Keeps l l') (hold : e.old ≠ []) : l.range ≠ e.place := by
  intro hrange
  have hlt : e.place.start < e.place.stop := by
    have hpos := byteLength_pos hold
    simp only [place, byteLength_append]
    omega
  obtain ⟨-, -, ⟨hstop, -⟩ | ⟨hstart, -⟩⟩ := h
  · rw [hrange] at hstop
    omega
  · rw [hrange] at hstart
    omega

/-! ### Words at edited leaves -/

variable {ls ls' : List Label}

/-- Where the piece lies between the leaves, the words stay. -/
lemma words_eq_of_keeps (h : List.Forall₂ e.Keeps ls ls') : Label.words ls' = Label.words ls := by
  induction h with
  | nil => rfl
  | @cons l l' ls ls' hl _ ih =>
    rw [← List.singleton_append, Label.words_append, ih, hl.words_eq, ← Label.words_append,
      List.singleton_append]

/-- The piece occurs no more often among the words, and less often if it is one of the leaves. -/
lemma count_of_changes (hold : e.old ≠ []) (hne : e.new ≠ e.old)
    (h : List.Forall₂ e.Changes ls ls') :
    (Label.words ls').count (String.ofList e.old) ≤ (Label.words ls).count (String.ofList e.old) ∧
      ((∃ l ∈ ls, l.range = e.place) →
        (Label.words ls').count (String.ofList e.old) <
          (Label.words ls).count (String.ofList e.old)) := by
  induction h with
  | nil => exact ⟨Nat.le_refl _, fun ⟨_, hl, _⟩ => absurd hl List.not_mem_nil⟩
  | @cons l l' ls ls' hl _ ih =>
    obtain ⟨hle, hlt⟩ := ih
    rw [← List.singleton_append, ← List.singleton_append (l := ls), Label.words_append,
      Label.words_append, List.count_append, List.count_append]
    rcases hl with hkeeps | hreplaces
    · rw [hkeeps.words_eq]
      refine ⟨by omega, fun ⟨m, hm, hrange⟩ => ?_⟩
      rcases List.mem_cons.mp hm with rfl | hm
      · exact absurd hrange (hkeeps.range_ne_place hold)
      · have := hlt ⟨m, hm, hrange⟩
        omega
    · have hfirst := hreplaces.count_lt hold hne
      exact ⟨by omega, fun _ => by omega⟩

/-- Where the piece is one of the leaves, the words change. -/
lemma words_ne_of_changes (hold : e.old ≠ []) (hne : e.new ≠ e.old)
    (h : List.Forall₂ e.Changes ls ls') (hmem : ∃ l ∈ ls, l.range = e.place) :
    Label.words ls' ≠ Label.words ls := by
  intro heq
  have hlt := (count_of_changes hold hne h).2 hmem
  rw [heq] at hlt
  exact Nat.lt_irrefl _ hlt

end Edit
end Text

/-! ### Trees of an edited text -/

namespace Tree

variable {R : Label → Label → Prop} {t t' : Tree}

mutual

/-- The two trees have the same shape and comments at the same places, and the labels of their
leaves correspond, comments apart. -/
def Matched (R : Label → Label → Prop) : Tree → Tree → Prop
  | node l cs, node l' cs' =>
    l'.kind.isComment = l.kind.isComment ∧ (cs = [] → l.kind.isComment = false → R l l') ∧
      MatchedAll R cs cs'

/-- Two rows of trees correspond one by one. -/
def MatchedAll (R : Label → Label → Prop) : List Tree → List Tree → Prop
  | [], [] => True
  | t :: ts, t' :: ts' => Matched R t t' ∧ MatchedAll R ts ts'
  | _, _ => False

end

mutual

/-- It can be decided whether two trees correspond. -/
def decidableMatched (R : Label → Label → Prop) [DecidableRel R] :
    (t t' : Tree) → Decidable (Matched R t t')
  | node l cs, node l' cs' =>
    have := decidableMatchedAll R cs cs'
    decidable_of_iff (l'.kind.isComment = l.kind.isComment ∧
      (cs.isEmpty = true → l.kind.isComment = false → R l l') ∧ MatchedAll R cs cs')
      (by rw [Matched, List.isEmpty_iff])

/-- It can be decided whether two rows of trees correspond. -/
def decidableMatchedAll (R : Label → Label → Prop) [DecidableRel R] :
    (ts ts' : List Tree) → Decidable (MatchedAll R ts ts')
  | [], [] => isTrue trivial
  | t :: ts, t' :: ts' =>
    have := decidableMatched R t t'
    have := decidableMatchedAll R ts ts'
    inferInstanceAs (Decidable (Matched R t t' ∧ MatchedAll R ts ts'))
  | [], _ :: _ => isFalse id
  | _ :: _, [] => isFalse id

end

instance [DecidableRel R] (t t' : Tree) : Decidable (Matched R t t') := decidableMatched R t t'

/-- Rows that match are both empty or neither. -/
lemma MatchedAll.eq_nil_iff : ∀ {ts ts' : List Tree}, MatchedAll R ts ts' → (ts' = [] ↔ ts = [])
  | [], [], _ => Iff.rfl
  | _ :: _, _ :: _, _ => iff_of_false (List.cons_ne_nil _ _) (List.cons_ne_nil _ _)

mutual

/-- The leaves of trees of the same shape correspond one by one. -/
theorem Matched.leaves : ∀ {t t' : Tree}, Matched R t t' → List.Forall₂ R t.leaves t'.leaves
  | node l cs, node l' cs', h => by
    rw [Matched] at h
    obtain ⟨hcomment, hleaf, hcs⟩ := h
    have hempty := hcs.eq_nil_iff
    have hrow := hcs.leavesOf
    cases hl : l.kind.isComment with
    | true =>
      rw [leaves_of_comment (t := node l cs) hl,
        leaves_of_comment (t := node l' cs') (hcomment.trans hl)]
      exact .nil
    | false =>
      by_cases hnil : cs = []
      · rw [leaves_of_leaf (t := node l cs) hl hnil,
          leaves_of_leaf (t := node l' cs') (hcomment.trans hl) (hempty.mpr hnil)]
        exact .cons (hleaf hnil hl) .nil
      · rw [leaves_eq_flatMap (t := node l cs) hl hnil,
          leaves_eq_flatMap (t := node l' cs') (hcomment.trans hl) (mt hempty.mp hnil),
          ← leavesOf_eq, ← leavesOf_eq]
        exact hrow

/-- The leaves of rows that match correspond. -/
theorem MatchedAll.leavesOf : ∀ {ts ts' : List Tree}, MatchedAll R ts ts' →
    List.Forall₂ R (leavesOf ts) (leavesOf ts')
  | [], [], _ => by
    rw [Tree.leavesOf]
    exact .nil
  | t :: ts, t' :: ts', h => by
    rw [MatchedAll] at h
    rw [Tree.leavesOf, Tree.leavesOf]
    exact List.rel_append h.1.leaves h.2.leavesOf

end

/-- `t'` is `t` with a comment as an additional child of a node that has a child already. -/
inductive Commented : Tree → Tree → Prop
  | here (l : Label) (before after : List Tree) (comment : Tree) :
    before ++ after ≠ [] → comment.label.kind.isComment = true →
    Commented (node l (before ++ after)) (node l (before ++ comment :: after))
  | child (l : Label) (before after : List Tree) (u u' : Tree) :
    Commented u u' → Commented (node l (before ++ u :: after)) (node l (before ++ u' :: after))

/-- One change of the layout: a comment is put among the children of a node, or the text between the
leaves is replaced, by more blanks for instance, and the leaves move. -/
inductive Relaid : Tree → Tree → Prop
  | comment {t t' : Tree} : Commented t t' → Relaid t t'
  | apart {t t' : Tree} (e : Text.Edit) : Matched e.Keeps t t' → Relaid t t'

/-- Nodes with children have the same words if their rows of children have. -/
lemma tokens_congr_row (l : Label) {cs cs' : List Tree} (hne : cs ≠ []) (hne' : cs' ≠ [])
    (h : cs'.flatMap tokens = cs.flatMap tokens) : (node l cs').tokens = (node l cs).tokens := by
  cases hl : l.kind.isComment with
  | true => rw [tokens_of_comment hl, tokens_of_comment hl]
  | false =>
    rw [tokens_node hl, tokens_node hl, if_neg (mt List.isEmpty_iff.mp hne),
      if_neg (mt List.isEmpty_iff.mp hne'), tokensOf_eq, tokensOf_eq, h]

/-- A comment among the children of a node adds no word. -/
lemma Commented.tokens_eq (h : Commented t t') : t'.tokens = t.tokens := by
  induction h with
  | here l before after comment hne hcomment =>
    have hnone : comment.tokens = [] := by
      obtain ⟨k, cs⟩ := comment
      exact tokens_of_comment hcomment cs
    refine tokens_congr_row l hne (by simp) ?_
    rw [List.flatMap_append, List.flatMap_cons, hnone, List.nil_append, ← List.flatMap_append]
  | child l before after u u' _ ih =>
    refine tokens_congr_row l (by simp) (by simp) ?_
    rw [List.flatMap_append, List.flatMap_cons, ih, ← List.flatMap_cons, ← List.flatMap_append]

/-- One change of the layout keeps the words. -/
lemma Relaid.tokens_eq (h : Relaid t t') : t'.tokens = t.tokens := by
  cases h with
  | comment h => exact h.tokens_eq
  | apart e h =>
    rw [tokens_eq_words, tokens_eq_words]
    exact Text.Edit.words_eq_of_keeps h.leaves

/-- Any number of changes of the layout keep the words. -/
lemma tokens_eq_of_relaid (h : Relation.ReflTransGen Relaid t t') : t'.tokens = t.tokens := by
  induction h with
  | refl => rfl
  | tail _ hstep ih => rw [hstep.tokens_eq, ih]

end Tree

namespace Node

/-- A word that is replaced by another one changes the words of the node. -/
lemma HasWord.tokens_ne {n n' w : Node} (hw : n.HasWord w) {e : Text.Edit}
    (hplace : w.label.range = e.place) (hne : e.new ≠ e.old)
    (h : Tree.Matched e.Changes n.focus n'.focus) : n'.tokens ≠ n.tokens := by
  have hold : e.old ≠ [] := by
    intro hnil
    have hcovers := hw.covers
    rw [hplace, Text.Edit.place, hnil, List.append_nil] at hcovers
    exact Nat.lt_irrefl _ hcovers
  have hleaf : w.label ∈ n.focus.leaves := by
    rw [← map_label_leaves]
    exact List.mem_map_of_mem (mem_leaves_iff.mpr ⟨hw.mem_preorder, hw.leaf, hw.plain⟩)
  rw [tokens, tokens, Tree.tokens_eq_words, Tree.tokens_eq_words]
  exact Text.Edit.words_ne_of_changes hold hne h.leaves ⟨w.label, hleaf, hplace⟩

/-- The words of a node are faithful, in every tree with properly nested ranges.

* They are the texts of the leaves in the subtree that cover some text and are not part of a
  comment, exactly these and each of them once, in the order of the text.  This list of leaves is
  unique.
* A cursor that is placed on the node collects them and is back at the node then; there is no other
  way for its visit to end.
* They stay the same whatever is changed in the layout, and change if one of them is replaced.
* So a comparison of words tells apart any two nodes where the texts of these leaves differ
  somewhere, and no others. -/
theorem tokens_faithful (t : Tree) (ht : (ofTree t).SpansNest) (n : Node)
    (hn : n ∈ (ofTree t).preorder) :
    (∃ ws, n.ListsWords ws ∧ (∀ us, n.ListsWords us → us = ws) ∧ n.tokens = ws.map text) ∧
      (∀ cursor : Node, cursor.focus = n.focus → ∀ found s,
        Cursor.Visits ⟨cursor, found⟩ s ↔ s = ⟨cursor, found ++ n.tokens⟩) ∧
      (∀ n' : Node, Relation.ReflTransGen Tree.Relaid n.focus n'.focus → n'.tokens = n.tokens) ∧
      (∀ w, n.HasWord w → ∀ (e : Text.Edit) (n' : Node), w.label.range = e.place → e.new ≠ e.old →
        Tree.Matched e.Changes n.focus n'.focus → n'.tokens ≠ n.tokens) ∧
      ∀ m ∈ (ofTree t).preorder, ∀ ws us, n.ListsWords ws → m.ListsWords us →
        ((n.tokens == m.tokens) = false ↔ ∃ i : Nat, ws[i]?.map text ≠ us[i]?.map text) := by
  have hspans : n.SpansNest := ht.of_mem_preorder hn
  have hlist : n.ListsWords n.wordLeaves := hspans.listsWords
  refine ⟨⟨n.wordLeaves, hlist, fun us hus => hus.unique hlist, tokens_eq_map_text n⟩, ?_, ?_, ?_,
    ?_⟩
  · intro cursor hfocus found s
    have htokens : cursor.tokens = n.tokens := by rw [tokens, tokens, hfocus]
    rw [Cursor.visits_iff, htokens]
  · intro n' h
    exact Tree.tokens_eq_of_relaid h
  · intro w hw e n' hplace hne h
    exact hw.tokens_ne hplace hne h
  · intro m hm ws us hws hus
    exact hws.tokens_beq_eq_false_iff hspans (ht.of_mem_preorder hm) hus

/-! ### An access with a comment in it -/

/-- The tree of an access `name[index]` to a place in a text.  The bracket stands `k` bytes behind
the name, and comments may stand between them. -/
def accessTree (source : String) (k : Nat) (comments : List Tree) : Tree :=
  let label (kind field : String) (named : Bool) (start stop : Nat) : Label :=
    PreorderEntry.label source.toList ⟨0, kind, field, named, ⟨start, stop⟩⟩
  .node (label "subscript_expression" "" true 0 (k + 4))
    ([.node (label "identifier" "object" true 0 1) []] ++ comments ++
      [ .node (label "[" "" false (k + 1) (k + 2)) [],
        .node (label "number" "index" true (k + 2) (k + 3)) [],
        .node (label "]" "" false (k + 3) (k + 4)) [] ])

/-- The comment in `a /* c */ [0]`. -/
def accessComment : Tree :=
  .node (PreorderEntry.label "a /* c */ [0]".toList ⟨0, "comment", "", true, ⟨2, 9⟩⟩) []

/-- The words of `a[0]` are those of `a /* c */ [0]`, and others than those of `a[1]`. -/
theorem tokens_faithful_accessTree :
    (ofTree (accessTree "a[0]" 0 [])).SpansNest ∧
      ofTree (accessTree "a[0]" 0 []) ∈ (ofTree (accessTree "a[0]" 0 [])).preorder ∧
      Cursor.Visits ⟨ofTree (accessTree "a[0]" 0 []), []⟩
        ⟨ofTree (accessTree "a[0]" 0 []), ["a", "[", "0", "]"]⟩ ∧
      (ofTree (accessTree "a /* c */ [0]" 9 [accessComment])).tokens =
        (ofTree (accessTree "a[0]" 0 [])).tokens ∧
      (ofTree (accessTree "a[1]" 0 [])).tokens ≠ (ofTree (accessTree "a[0]" 0 [])).tokens := by
  have hspans : (ofTree (accessTree "a[0]" 0 [])).SpansNest := by decide +kernel
  obtain ⟨-, hcursor, hlayout, hword, -⟩ := tokens_faithful (accessTree "a[0]" 0 []) hspans
    (ofTree (accessTree "a[0]" 0 [])) (self_mem_preorder _)
  refine ⟨hspans, self_mem_preorder _, ?_, hlayout _ ?_, ?_⟩
  · have htokens : (ofTree (accessTree "a[0]" 0 [])).tokens = ["a", "[", "0", "]"] := by
      decide +kernel
    rw [hcursor _ rfl, htokens, List.nil_append]
  · -- First room is made for the comment, then it is put there.
    have hapart : Tree.Matched (Text.Edit.Keeps ⟨['a'], [], " /* c */ ".toList, "[0]".toList⟩)
        (accessTree "a[0]" 0 []) (accessTree "a /* c */ [0]" 9 []) := by decide +kernel
    have hcomment : Tree.Commented (accessTree "a /* c */ [0]" 9 [])
        (accessTree "a /* c */ [0]" 9 [accessComment]) :=
      .here _ [_] _ accessComment (List.cons_ne_nil _ _) (by decide +kernel)
    exact .tail (.single (.apart _ hapart)) (.comment hcomment)
  · obtain ⟨w, hw, hrange⟩ : ∃ w ∈ (ofTree (accessTree "a[0]" 0 [])).wordLeaves,
        w.label.range = ⟨2, 3⟩ := by decide +kernel
    exact hword w (mem_wordLeaves_iff.mp hw) ⟨"a[".toList, ['0'], ['1'], [']']⟩ _ hrange
      (by decide) (by decide +kernel)

end Node
end LoopLint
