import LoopLint.Proofs.Syntax.Descent
import Mathlib.Data.List.Nodup
import Mathlib.Data.Set.Function

/-!
# Recasting a syntax tree

Much of a syntax tree can be changed without a change to the program that it spells for the linter:
positions can be moved, comments left out, names exchanged.  A `Recast` is such a change.  It takes
nodes to nodes together with their surroundings, so that going down and going up commute with it,
and it may give the words of the program other spellings, as long as different words stay different.

This module derives from the laws of a recast what it does to the parts of a node: children in a
field, named children, grouping parentheses.
-/

namespace LoopLint

/-- Nodes that are known by their text: names and numbers. -/
def Kind.isSpelled : Kind → Bool
  | .identifier | .shorthandProperty | .shorthandPattern | .propertyIdentifier | .number => true
  | _ => false

/-- A change of nodes that keeps what they mean. -/
structure Recast where
  /-- What a node becomes. -/
  map : Node → Node
  /-- How a word is spelled afterwards. -/
  rename : String → String
  /-- The words that stay different. -/
  words : Set String
  /-- The nodes on which the change is faithful. -/
  Good : Node → Prop
  /-- Whether a child is still there afterwards. -/
  keeps : Node → Bool
  good_child {n c : Node} : Good n → c ∈ n.children → Good c
  good_parent {n p : Node} : Good n → n ∈ p.children → Good p
  keeps_of_not_comment {n : Node} : n.kind.isComment = false → keeps n = true
  keeps_of_field {n : Node} {f : Field} : Good n → n.label.field = some f → keeps n = true
  kind_map (n : Node) : (map n).kind = n.kind
  field_map (n : Node) : (map n).label.field = n.label.field
  named_map (n : Node) : (map n).label.named = n.label.named
  children_map (n : Node) : (map n).children = (n.children.filter keeps).map map
  parent?_map {n : Node} : keeps n = true → (map n).parent? = n.parent?.map map
  text_map {n : Node} : Good n → n.kind.isSpelled = true → (map n).text = rename n.text
  tokens_map (n : Node) : (map n).tokens = n.tokens.map rename
  rename_injOn : Set.InjOn rename words
  text_mem_words {n : Node} : Good n → n.kind.isSpelled = true → n.text ∈ words
  tokens_mem_words {n : Node} : Good n → ∀ w ∈ n.tokens, w ∈ words
  /-- The words that the linter itself looks for. -/
  fixed : ∀ w ∈ ["0", "1", "length"], w ∈ words ∧ rename w = w

attribute [simp] Recast.kind_map Recast.field_map Recast.named_map

namespace Node

/-- Parentheses are taken away as long as something stands in them. -/
lemma unwrap_eq (n : Node) :
    n.unwrap =
      if n.kind = .parenthesized then (n.namedChildren.head?.map unwrap).getD n else n := by
  rw [unwrap]
  split
  · split <;> rename_i h <;> rw [h] <;> rfl
  · rfl

end Node

namespace Recast

variable (φ : Recast) {n m c d p : Node} {f : Field}

/-- What stands below a good node is good. -/
lemma good_of_mem_preorder (h : φ.Good n) (hm : m ∈ n.preorder) : φ.Good m := by
  induction n using Node.childrenInduction with
  | step n ih =>
    rcases Node.mem_preorder_iff.mp hm with rfl | ⟨c, hc, hmc⟩
    · exact h
    · exact ih c hc (φ.good_child h hc) hmc

/-- The parts of a good node are good. -/
lemma good_of_child? (h : φ.Good n) (hc : n.child? f = some c) : φ.Good c :=
  φ.good_child h (Node.mem_children_of_child? hc)

/-- A part of a node is kept. -/
lemma keeps_of_child? (h : φ.Good n) (hc : n.child? f = some c) : φ.keeps c = true :=
  φ.keeps_of_field (φ.good_of_child? h hc) (Node.field_of_child? hc)

/-! ### Children -/

/-- A child that is kept is recast to a child. -/
lemma map_mem_children (hc : c ∈ n.children) (hk : φ.keeps c = true) :
    φ.map c ∈ (φ.map n).children := by
  rw [φ.children_map]
  exact List.mem_map_of_mem (List.mem_filter.mpr ⟨hc, hk⟩)

/-- Children that are kept stay different. -/
lemma eq_of_map_eq (hc : c ∈ n.children) (hd : d ∈ n.children) (hck : φ.keeps c = true)
    (hdk : φ.keeps d = true) (h : φ.map c = φ.map d) : c = d := by
  have hnodup := Node.nodup_children (φ.map n)
  rw [φ.children_map] at hnodup
  exact List.inj_on_of_nodup_map hnodup (List.mem_filter.mpr ⟨hc, hck⟩)
    (List.mem_filter.mpr ⟨hd, hdk⟩) h

/-- Named children are recast, and none is dropped or added. -/
lemma namedChildren_map (n : Node) : (φ.map n).namedChildren = n.namedChildren.map φ.map := by
  rw [Node.namedChildren, φ.children_map, List.filter_map, List.filter_filter, Node.namedChildren]
  congr 1
  refine List.filter_congr fun c _ => ?_
  cases hc : c.kind.isComment with
  | true => simp [hc]
  | false => simp [hc, φ.keeps_of_not_comment hc]

/-- The first named child is recast. -/
lemma head?_namedChildren_map (n : Node) :
    (φ.map n).namedChildren.head? = n.namedChildren.head?.map φ.map := by
  rw [φ.namedChildren_map, List.head?_map]

/-- Children of other kinds than comments are still there. -/
lemma hasChild_map {k : Kind} (hk : k.isComment = false) (n : Node) :
    (φ.map n).hasChild k = n.hasChild k := by
  rw [Bool.eq_iff_iff, Node.hasChild, Node.hasChild, φ.children_map]
  simp only [List.any_eq_true, List.mem_map, List.mem_filter, beq_iff_eq]
  constructor
  · rintro ⟨_, ⟨c, ⟨hc, -⟩, rfl⟩, hck⟩
    exact ⟨c, hc, by rwa [φ.kind_map] at hck⟩
  · rintro ⟨c, hc, rfl⟩
    exact ⟨φ.map c, ⟨c, ⟨hc, φ.keeps_of_not_comment hk⟩, rfl⟩, φ.kind_map c⟩

/-- Taking parentheses away and recasting can be exchanged. -/
lemma unwrap_map (n : Node) : (φ.map n).unwrap = φ.map n.unwrap := by
  fun_induction Node.unwrap n with
  | case1 n hn inner h ih =>
    rw [Node.unwrap_eq, φ.kind_map, if_pos hn, φ.head?_namedChildren_map, h]
    exact ih
  | case2 n hn h =>
    rw [Node.unwrap_eq, φ.kind_map, if_pos hn, φ.head?_namedChildren_map, h]
    rfl
  | case3 n hn => rw [Node.unwrap_eq, φ.kind_map, if_neg hn]

/-! ### Parts -/

/-- The parts of a node are recast. -/
lemma child?_map (h : φ.Good n) (f : Field) : (φ.map n).child? f = (n.child? f).map φ.map := by
  rw [Node.child?, φ.children_map, List.find?_map, List.find?_filter, Node.child?,
    ← List.head?_filter, ← List.head?_filter]
  congr 2
  refine List.filter_congr fun c hc => ?_
  rw [Bool.eq_iff_iff]
  have hkeeps : c.label.field = some f → φ.keeps c = true :=
    φ.keeps_of_field (φ.good_child h hc)
  simpa using hkeeps

/-- A test of a part that recasting does not change. -/
lemma childIs_map (h : φ.Good n) {q q' : Node → Bool} (f : Field)
    (hq : ∀ c, n.child? f = some c → q' (φ.map c) = q c) :
    (φ.map n).childIs f q' = n.childIs f q := by
  rw [Node.childIs, φ.child?_map h, Node.childIs]
  cases hc : n.child? f with
  | none => rfl
  | some c => exact hq c hc

/-- A child that is kept is the part of its parent in some field exactly if it was before. -/
lemma isPartOf_map (h : φ.Good p) (hn : n ∈ p.children) (hk : φ.keeps n = true) (f : Field) :
    (φ.map n).isPartOf (φ.map p) f = n.isPartOf p f := by
  rw [Bool.eq_iff_iff, Node.isPartOf_eq_true_iff (φ.map_mem_children hn hk),
    Node.isPartOf_eq_true_iff hn, φ.child?_map h, Option.map_eq_some_iff]
  constructor
  · rintro ⟨d, hd, heq⟩
    rw [φ.eq_of_map_eq hn (Node.mem_children_of_child? hd) hk (φ.keeps_of_child? h hd) heq.symm]
    exact hd
  · intro hd
    exact ⟨n, hd, rfl⟩

/-! ### Words -/

/-- Different lists of words stay different. -/
lemma eq_of_map_rename_eq {ws vs : List String} (hws : ∀ w ∈ ws, w ∈ φ.words)
    (hvs : ∀ v ∈ vs, v ∈ φ.words) (h : ws.map φ.rename = vs.map φ.rename) : ws = vs := by
  induction ws generalizing vs with
  | nil => exact (List.map_eq_nil_iff.mp h.symm).symm
  | cons w ws ih =>
    cases vs with
    | nil => cases h
    | cons v vs =>
      rw [List.map_cons, List.map_cons, List.cons.injEq] at h
      rw [List.forall_mem_cons] at hws hvs
      rw [φ.rename_injOn hws.1 hvs.1 h.1, ih hws.2 hvs.2 h.2]

/-- Nodes have the same words afterwards if they had before. -/
lemma tokens_map_eq_iff (hn : φ.Good n) (hm : φ.Good m) :
    (φ.map n).tokens = (φ.map m).tokens ↔ n.tokens = m.tokens := by
  rw [φ.tokens_map, φ.tokens_map]
  constructor
  · intro h
    exact φ.eq_of_map_rename_eq (φ.tokens_mem_words hn) (φ.tokens_mem_words hm) h
  · intro h
    rw [h]

/-- A name or a number is spelled like a word afterwards if it was before. -/
lemma text_map_eq_iff (h : φ.Good n) (hn : n.kind.isSpelled = true) {s : String}
    (hs : s ∈ φ.words) : (φ.map n).text = φ.rename s ↔ n.text = s := by
  rw [φ.text_map h hn]
  constructor
  · intro heq
    exact φ.rename_injOn (φ.text_mem_words h hn) hs heq
  · intro heq
    rw [heq]

/-- A test for a kind of node that is known by its text, and for the text. -/
lemma kind_and_text_map {k : Kind} (hk : k.isSpelled = true) (h : φ.Good n) {s : String}
    (hs : s ∈ φ.words) :
    ((φ.map n).kind == k && (φ.map n).text == φ.rename s) = (n.kind == k && n.text == s) := by
  rw [φ.kind_map]
  by_cases hn : n.kind = k
  · have hiff := φ.text_map_eq_iff h (by rw [hn, hk]) hs
    rw [Bool.eq_iff_iff]
    simp only [Bool.and_eq_true, beq_iff_eq, hiff]
  · rw [beq_eq_false_iff_ne.mpr hn, Bool.false_and, Bool.false_and]

end Recast
end LoopLint
