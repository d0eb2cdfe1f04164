import LoopLint.Proofs.Loop.Written
import LoopLint.Proofs.Syntax.Grouping

/-!
# Parentheses and the use of an index

Grouping parentheses do not change whether a use of an index reads an element of the array.  The
test looks at parentheses in three ways.  It takes them away from the object of the access and from
the array, to compare what is left; and it goes up through those around the access, to see whether
the element is written there.

The way down is a matter of words (`Tree.Matches`).  For the way up, `Placed` says when two nodes
have the same place but for parentheses; then both are written or neither is (`written_congr`).
`Node.Regroups` puts one pair of parentheses around one of the three nodes.  An access that is
itself a part of the array has more words than its object, and is no read of the array before or
after (`isPureRead_eq_false_of_isWithin`).
-/

namespace LoopLint

/-! ### What a parent can tell of its parts -/

/-- The two stand in the same field, and both or neither are the word `delete`. -/
def Label.Alike (l l' : Label) : Prop :=
  l'.field = l.field ∧ (l'.kind = .deleteWord ↔ l.kind = .deleteWord)

/-- Every label is like itself. -/
lemma Label.Alike.refl (l : Label) : l.Alike l := ⟨rfl, Iff.rfl⟩

/-- A node with the label `l'` below the ancestors `fs'` has the place of one with the label `l`
below the ancestors `fs`: the ancestors are of the same kinds with the same fields around them, but
for parentheses that have been put in. -/
inductive Placed : Label → List Frame → Label → List Frame → Prop
  | root (l l' : Label) : Placed l [] l' []
  | child {l l' : Label} {f f' : Frame} {fs fs' : List Frame} (hl : l.Alike l')
      (hkind : f'.label.kind = f.label.kind)
      (hleft : List.Forall₂ (fun t t' => t.label.Alike t'.label) f.left f'.left)
      (hright : List.Forall₂ (fun t t' => t.label.Alike t'.label) f.right f'.right)
      (h : Placed f.label fs f'.label fs') : Placed l (f :: fs) l' (f' :: fs')
  | wrapped {l l' : Label} {f : Frame} {fs fs' : List Frame} (hf : f.label.kind = .parenthesized)
      (h : Placed l fs f.label fs') : Placed l fs l' (f :: fs')

/-- Nodes below the same ancestors that look alike to their parent have the same place. -/
lemma Placed.of_alike {l l' : Label} (h : l.Alike l') (fs : List Frame) : Placed l fs l' fs := by
  induction fs generalizing l l' with
  | nil => exact .root l l'
  | cons f fs ih =>
    have hrow : ∀ ts : List Tree, List.Forall₂ (fun t t' => t.label.Alike t'.label) ts ts :=
      fun ts => List.forall₂_same.mpr fun t _ => Label.Alike.refl t.label
    exact .child h rfl (hrow f.left) (hrow f.right) (ih (Label.Alike.refl f.label))

namespace Node

variable {t t' : Tree} {f f' : Frame} {fs fs' : List Frame}

/-- A node is a child of the node above it. -/
lemma mem_children_plug (t : Tree) (f : Frame) (fs : List Frame) :
    (⟨t, f :: fs⟩ : Node) ∈ children ⟨f.plug t, fs⟩ :=
  mem_children_of_parent? rfl

/-- A child is the first in a field if it stands there and none before it does. -/
lemma find?_siblings_eq_some_iff {l : Label} {above : List Frame} {left before rest : List Tree}
    {g : Field} :
    (siblings l above left (before ++ t :: rest)).find? (fun c => c.label.field == some g) =
        some ⟨t, ⟨l, before.reverseAux left, rest⟩ :: above⟩ ↔
      t.label.field = some g ∧ ∀ u ∈ before, u.label.field ≠ some g := by
  induction before generalizing left with
  | nil =>
    rw [List.nil_append, siblings]
    by_cases ht : t.label.field = some g
    · simp [label, ht]
    · rw [List.find?_cons_of_neg (by simpa [label] using ht)]
      refine ⟨fun h => ?_, fun h => absurd h.1 ht⟩
      -- What comes later has more siblings on its left.
      obtain ⟨f, hf, hle⟩ := left_length_le_of_mem_siblings (List.mem_of_find?_eq_some h)
      obtain ⟨rfl, -⟩ := List.cons.inj hf
      exact absurd hle (Nat.not_succ_le_self _)
  | cons b before ih =>
    rw [List.cons_append, siblings]
    by_cases hb : b.label.field = some g
    · rw [List.find?_cons_of_pos (by simpa [label] using hb)]
      refine ⟨fun h => ?_, fun h => absurd hb (h.2 b List.mem_cons_self)⟩
      have hleft := congrArg (fun n => (n.above.map (·.left.length)).head?) (Option.some.inj h)
      simp only [List.map_cons, List.head?_cons, Option.some.injEq, List.reverseAux_eq,
        List.length_append, List.length_reverse, List.length_cons] at hleft
      omega
    · rw [List.find?_cons_of_neg (by simpa [label] using hb), List.reverseAux_cons, ih,
        List.forall_mem_cons]
      exact and_congr_right fun _ => (and_iff_right hb).symm

/-- A node is the part of its parent in a field if it stands in the field and nothing on its left
does. -/
lemma child?_plug_eq_some_iff {g : Field} :
    child? ⟨f.plug t, fs⟩ g = some ⟨t, f :: fs⟩ ↔
      t.label.field = some g ∧ ∀ u ∈ f.left, u.label.field ≠ some g := by
  have h := @find?_siblings_eq_some_iff t f.label fs [] f.left.reverse f.right g
  simp only [List.reverseAux_eq, List.reverse_reverse, List.append_nil, List.mem_reverse] at h
  rw [← h, child?, children, Frame.plug, List.reverseAux_eq]
  rfl

/-- A node has a child of some kind if it stands to the left, in the middle or to the right. -/
lemma hasChild_plug {k : Kind} :
    hasChild ⟨f.plug t, fs⟩ k = true ↔
      (∃ u ∈ f.left, u.label.kind = k) ∨ t.label.kind = k ∨ ∃ u ∈ f.right, u.label.kind = k := by
  have hany : hasChild ⟨f.plug t, fs⟩ k = (f.plug t).children.any (fun u => u.label.kind == k) := by
    rw [hasChild, ← map_focus_children ⟨f.plug t, fs⟩, List.any_map]
    rfl
  rw [hany, Frame.plug, Tree.children, List.reverseAux_eq, List.any_append, List.any_reverse,
    List.any_cons]
  simp

/-! ### Writing -/

/-- The root is not written: nothing stands above it. -/
lemma not_written_root (wrapper : Kind → Bool) (t : Tree) : ¬ Written wrapper ⟨t, []⟩ := by
  intro h
  have hparent : ∃ p : Node, (⟨t, []⟩ : Node) ∈ p.children := by
    cases h with
    | here h => exact ⟨_, h.mem_children⟩
    | wrapped _ hn _ => exact ⟨_, hn⟩
  obtain ⟨p, hp⟩ := hparent
  cases parent?_of_mem_children hp

/-- Rows that look alike have the word `delete` in both or in neither. -/
lemma exists_deleteWord_congr {ts ts' : List Tree}
    (h : List.Forall₂ (fun t t' => t.label.Alike t'.label) ts ts') :
    (∃ u ∈ ts', u.label.kind = .deleteWord) ↔ ∃ u ∈ ts, u.label.kind = .deleteWord := by
  induction h with
  | nil => exact Iff.rfl
  | cons hu _ ih =>
    rw [List.exists_mem_cons_iff, List.exists_mem_cons_iff, ih, hu.2]

/-- Rows with the same fields have a tree in some field both or neither. -/
lemma forall_field_congr {ts ts' : List Tree} (g : Field)
    (h : List.Forall₂ (fun t t' => t'.label.field = t.label.field) ts ts') :
    (∀ u ∈ ts', u.label.field ≠ some g) ↔ ∀ u ∈ ts, u.label.field ≠ some g := by
  induction h with
  | nil => exact Iff.rfl
  | cons hu _ ih => rw [List.forall_mem_cons, List.forall_mem_cons, ih, hu]

/-- Whether a child is the first in its field depends on the fields to its left. -/
lemma child?_plug_congr (g : Field) (ht : t'.label.field = t.label.field)
    (hleft : List.Forall₂ (fun t t' => t'.label.field = t.label.field) f.left f'.left) :
    child? ⟨f'.plug t', fs'⟩ g = some ⟨t', f' :: fs'⟩ ↔
      child? ⟨f.plug t, fs⟩ g = some ⟨t, f :: fs⟩ := by
  rw [child?_plug_eq_some_iff, child?_plug_eq_some_iff, ht, forall_field_congr g hleft]

/-- Whether a parent writes to its child depends on its kind and on what it can tell of its
children. -/
lemma writes_congr (ht : t.label.Alike t'.label) (hkind : f'.label.kind = f.label.kind)
    (hleft : List.Forall₂ (fun t t' => t.label.Alike t'.label) f.left f'.left)
    (hright : List.Forall₂ (fun t t' => t.label.Alike t'.label) f.right f'.right) :
    Writes ⟨f'.plug t', fs'⟩ ⟨t', f' :: fs'⟩ ↔ Writes ⟨f.plug t, fs⟩ ⟨t, f :: fs⟩ := by
  have hfield := hleft.imp fun _ _ h => h.1
  have hk : kind ⟨f'.plug t', fs'⟩ = kind ⟨f.plug t, fs⟩ := hkind
  have hdelete : hasChild ⟨f'.plug t', fs'⟩ .deleteWord = true ↔
      hasChild ⟨f.plug t, fs⟩ .deleteWord = true := by
    rw [hasChild_plug, hasChild_plug, exists_deleteWord_congr hleft,
      exists_deleteWord_congr hright, ht.2]
  rw [writes_iff (mem_children_plug t' f' fs'), writes_iff (mem_children_plug t f fs), hk,
    child?_plug_congr _ ht.1 hfield, child?_plug_congr _ ht.1 hfield, hdelete]

/-- Nodes at the same place are both written or both not. -/
theorem written_congr (h : Placed t.label fs t'.label fs') :
    Written Kind.isGrouping ⟨t', fs'⟩ ↔ Written Kind.isGrouping ⟨t, fs⟩ := by
  generalize hl : t.label = l at h
  generalize hl' : t'.label = l' at h
  induction h generalizing t t' with
  | root =>
    exact iff_of_false (not_written_root _ t') (not_written_root _ t)
  | @child l l' f f' fs fs' halike hkind hleft hright _ ih =>
    subst hl hl'
    have hk : kind ⟨f'.plug t', fs'⟩ = kind ⟨f.plug t, fs⟩ := hkind
    rw [written_iff (mem_children_plug t' f' fs'), written_iff (mem_children_plug t f fs),
      writes_congr halike hkind hleft hright, hk, @ih (f.plug t) (f'.plug t') rfl rfl]
  | @wrapped l l' f fs fs' hf _ ih =>
    have hk : kind ⟨f.plug t', fs'⟩ = .parenthesized := hf
    have hwrites : ¬ Writes ⟨f.plug t', fs'⟩ ⟨t', f :: fs'⟩ := by
      rw [writes_iff (mem_children_plug t' f fs'), hk]
      exact not_false
    have hgrouping : Kind.isGrouping .parenthesized = true := rfl
    rw [written_iff (mem_children_plug t' f fs'), hk, or_iff_right hwrites, and_iff_right hgrouping]
    exact @ih t (f.plug t') hl rfl

/-! ### Reading -/

end Node

/-- The two stand in the same field and have the same words, grouping parentheses aside. -/
def Tree.Matches (t t' : Tree) : Prop :=
  t'.label.field = t.label.field ∧ t'.core = t.core

/-- Every tree matches itself. -/
lemma Tree.Matches.refl (t : Tree) : t.Matches t := ⟨rfl, rfl⟩

/-- A tree matches itself in parentheses. -/
lemma Parens.matches_around (w : Parens) {t : Tree} (ht : t.isContent = true) :
    t.Matches (w.around t) :=
  ⟨rfl, w.core_around ht⟩

namespace Node

variable {t t' : Tree} {f f' : Frame} {fs fs' : List Frame}

/-- The first trees in a field have the same words in rows that match. -/
lemma map_core_find?_congr (g : Field) {ts ts' : List Tree} (h : List.Forall₂ Tree.Matches ts ts') :
    (ts'.find? (fun u => u.label.field == some g)).map Tree.core =
      (ts.find? (fun u => u.label.field == some g)).map Tree.core := by
  induction h with
  | nil => rfl
  | @cons u u' _ _ hu _ ih =>
    rw [List.find?_cons, List.find?_cons, hu.1]
    cases u.label.field == some g with
    | true => exact congrArg some hu.2
    | false => exact ih

/-- The words of the part in a field do not change with the parentheses around the parts. -/
lemma map_tokens_child?_congr (g : Field) {n n' : Node}
    (h : List.Forall₂ Tree.Matches n.focus.children n'.focus.children) :
    (n'.child? g).map (·.unwrap.tokens) = (n.child? g).map (·.unwrap.tokens) := by
  have hcore : ∀ m : Node, (m.child? g).map (·.unwrap.tokens) =
      (m.focus.children.find? (fun u => u.label.field == some g)).map Tree.core := by
    intro m
    rw [← map_focus_child?, Option.map_map]
    exact congrArg (fun F => (m.child? g).map F) (funext tokens_unwrap)
  rw [hcore, hcore, map_core_find?_congr g h]

/-- The children of two parents match if the parts of the parents do. -/
lemma forall₂_children_plug (ht : t.Matches t') (hleft : List.Forall₂ Tree.Matches f.left f'.left)
    (hright : List.Forall₂ Tree.Matches f.right f'.right) :
    List.Forall₂ Tree.Matches (f.plug t).children (f'.plug t').children := by
  rw [Frame.plug, Frame.plug, Tree.children, Tree.children, List.reverseAux_eq, List.reverseAux_eq]
  exact List.rel_append (List.forall₂_reverse_iff.mpr hleft) (.cons ht hright)

/-- A use in a row of parts that differ by parentheses only, of an access at the same place. -/
theorem isPureRead_congr {A A' : Node} (hkind : f'.label.kind = f.label.kind) (ht : t.Matches t')
    (hleft : List.Forall₂ Tree.Matches f.left f'.left)
    (hright : List.Forall₂ Tree.Matches f.right f'.right)
    (hplace : Placed f.label fs f'.label fs') (hA : A'.focus.core = A.focus.core) :
    isPureRead ⟨t', f' :: fs'⟩ A' = isPureRead ⟨t, f :: fs⟩ A := by
  have hfield := hleft.imp fun _ _ h => h.1
  have hk : kind ⟨f'.plug t', fs'⟩ = kind ⟨f.plug t, fs⟩ := hkind
  have hindex : isPartOf ⟨t', f' :: fs'⟩ ⟨f'.plug t', fs'⟩ .index =
      isPartOf ⟨t, f :: fs⟩ ⟨f.plug t, fs⟩ .index := by
    rw [Bool.eq_iff_iff, isPartOf_eq_true_iff (mem_children_plug t' f' fs'),
      isPartOf_eq_true_iff (mem_children_plug t f fs), child?_plug_congr .index ht.1 hfield]
  have hobject : childIs ⟨f'.plug t', fs'⟩ .object (·.unwrap.tokens == A'.unwrap.tokens) =
      childIs ⟨f.plug t, fs⟩ .object (·.unwrap.tokens == A.unwrap.tokens) := by
    have hrow := @map_tokens_child?_congr .object ⟨f.plug t, fs⟩ ⟨f'.plug t', fs'⟩
      (forall₂_children_plug ht hleft hright)
    have hany := congrArg (Option.any (· == A.focus.core)) hrow
    rw [Option.any_map, Option.any_map] at hany
    rw [tokens_unwrap A', hA, tokens_unwrap A]
    exact hany
  have hwritten : isWriteTarget ⟨f'.plug t', fs'⟩ = isWriteTarget ⟨f.plug t, fs⟩ := by
    rw [Bool.eq_iff_iff, isWriteTarget_eq_true_iff, isWriteTarget_eq_true_iff]
    exact written_congr hplace
  rw [isPureRead, isPureRead]
  simp only [parent?]
  rw [hk, hindex, hobject, hwritten]

/-! ### Children by position -/

/-- The child at some position, together with what stands to its left and right. -/
lemma getElem?_siblings (l : Label) (above : List Frame) (left ts : List Tree) (i : Nat) :
    (siblings l above left ts)[i]? =
      ts[i]?.map fun t => ⟨t, ⟨l, (ts.take i).reverseAux left, ts.drop (i + 1)⟩ :: above⟩ := by
  induction ts generalizing left i with
  | nil => rfl
  | cons t ts ih =>
    cases i with
    | zero => rfl
    | succ i => exact ih (t :: left) i

/-- The child at a position, with its siblings. -/
lemma children_getElem?_eq_some_iff {n c : Node} {i : Nat} :
    n.children[i]? = some c ↔ ∃ t, n.focus.children[i]? = some t ∧
      c = ⟨t, ⟨n.label, (n.focus.children.take i).reverse, n.focus.children.drop (i + 1)⟩ ::
        n.above⟩ := by
  rw [children, getElem?_siblings, Option.map_eq_some_iff]
  exact exists_congr fun t => and_congr_right fun _ => eq_comm

/-- The tree of the child at some position is the tree at that position. -/
lemma focus_of_getElem? {n c : Node} {i : Nat} (h : n.children[i]? = some c) :
    n.focus.children[i]? = some c.focus := by
  obtain ⟨t, ht, rfl⟩ := children_getElem?_eq_some_iff.mp h
  exact ht

/-- Uses at the same position of two accesses. -/
lemma isPureRead_congr_of_getElem? {a a' r r' A A' : Node} {i : Nat} (hr : a.children[i]? = some r)
    (hr' : a'.children[i]? = some r') (hkind : a'.kind = a.kind)
    (hrow : List.Forall₂ Tree.Matches a.focus.children a'.focus.children)
    (hplace : Placed a.label a.above a'.label a'.above) (hA : A'.focus.core = A.focus.core) :
    r'.isPureRead A' = r.isPureRead A := by
  obtain ⟨t, ht, rfl⟩ := children_getElem?_eq_some_iff.mp hr
  obtain ⟨t', ht', rfl⟩ := children_getElem?_eq_some_iff.mp hr'
  obtain ⟨hi, rfl⟩ := List.getElem?_eq_some_iff.mp ht
  obtain ⟨hi', rfl⟩ := List.getElem?_eq_some_iff.mp ht'
  exact isPureRead_congr hkind (hrow.get hi hi')
    (List.forall₂_reverse_iff.mpr (List.forall₂_take i hrow)) (List.forall₂_drop (i + 1) hrow)
    hplace hA

/-! ### Uses that are no reads -/

/-- A use below anything but an access is no read of an element. -/
lemma isPureRead_eq_false_of_kind {a r A : Node} (hr : r ∈ a.children)
    (hkind : a.kind ≠ .subscript) : r.isPureRead A = false := by
  rw [Bool.eq_false_iff, ne_eq, isPureRead_eq_true_iff]
  rintro ⟨access, ⟨hsubscript, hindex, -⟩, -⟩
  rw [eq_of_mem_children_of_mem_children hr (mem_children_of_child? hindex)] at hkind
  exact hkind hsubscript

/-- An access that is a part of the array has more words than its object, so it does not read the
array. -/
lemma isPureRead_eq_false_of_isWithin {a r A : Node} (hr : r ∈ a.children) (hwords : r.tokens ≠ [])
    (ha : a.IsWithin A.unwrap) : r.isPureRead A = false := by
  rw [Bool.eq_false_iff, ne_eq, isPureRead_eq_true_iff]
  rintro ⟨access, ⟨hkind, hindex, object, hobject, htokens⟩, -⟩
  obtain rfl := eq_of_mem_children_of_mem_children hr (mem_children_of_child? hindex)
  have hne : r ≠ object := by
    rintro rfl
    have hfield := field_of_child? hindex
    rw [field_of_child? hobject] at hfield
    cases hfield
  have hcomment : a.kind.isComment = false := by rw [hkind]; rfl
  have hpos : 0 < r.tokens.length := List.length_pos_iff.mpr hwords
  have hobjectWords := length_tokens_unwrap_le object
  have haccessWords := length_tokens_add_le hcomment (mem_children_of_child? hobject) hr hne
  have harrayWords := length_tokens_le_of_isWithin ha
  rw [htokens] at hobjectWords
  omega

/-! ### Parentheses are put in -/

/-- The node in parentheses: the same tree, one level deeper. -/
def inParens (n : Node) (w : Parens) : Node :=
  ⟨n.focus.detached,
    ⟨{ w.label with field := n.label.field }, w.before.reverse, w.after⟩ :: n.above⟩

/-- The node with another tree at a position below it. -/
def replaceChild (n : Node) (i : Nat) (t : Tree) : Node :=
  ⟨.node n.label (n.focus.children.set i t), n.above⟩

/-- The array becomes `A'` when the access `a` becomes `a'`.  Its tree stays as it is, or the access
with the use `r` is a part of it. -/
def Follows (r a a' A A' : Node) : Prop :=
  A'.focus.detached = A.focus.detached ∨
    r.tokens ≠ [] ∧ a.IsWithin A.unwrap ∧ a'.IsWithin A'.unwrap

/-- One pair of parentheses is put in.  Related are a use and an array before, and the same use and
array afterwards. -/
inductive Regroups : Node × Node → Node × Node → Prop
  /-- Around the object of the access `a`. -/
  | object {a r r' o A A' : Node} {i j : Nat} (w : Parens) (hr : a.children[i]? = some r)
      (ho : a.child? .object = some o) (hj : a.children[j]? = some o) (hij : i ≠ j)
      (hcontent : o.focus.isContent = true)
      (hr' : (a.replaceChild j (w.around o.focus)).children[i]? = some r')
      (hA : Follows r a (a.replaceChild j (w.around o.focus)) A A') : Regroups (r, A) (r', A')
  /-- Around the array. -/
  | array {r A A' : Node} (w : Parens) (hcontent : A.focus.isContent = true)
      (hA : A'.focus = w.around A.focus) : Regroups (r, A) (r, A')
  /-- Around the access `a`. -/
  | access {a r r' A A' : Node} {i : Nat} (w : Parens) (hr : a.children[i]? = some r)
      (hcontent : a.focus.isContent = true) (hr' : (a.inParens w).children[i]? = some r')
      (hA : Follows r a (a.inParens w) A A') : Regroups (r, A) (r', A')
  /-- Somewhere around the access `a`, which becomes `a'`. -/
  | elsewhere {a a' r r' A A' : Node} {i : Nat} (hr : a.children[i]? = some r)
      (hfocus : a'.focus = a.focus) (hplace : Placed a.label a.above a'.label a'.above)
      (hr' : a'.children[i]? = some r') (hA : A'.focus.detached = A.focus.detached) :
      Regroups (r, A) (r', A')

/-- Every row matches itself. -/
lemma forall₂_matches_refl (ts : List Tree) : List.Forall₂ Tree.Matches ts ts :=
  List.forall₂_same.mpr fun t _ => Tree.Matches.refl t

/-- A row matches the row in which one tree is replaced by one that matches it. -/
lemma forall₂_matches_set {ts : List Tree} {t t' : Tree} {j : Nat} (ht : ts[j]? = some t)
    (h : t.Matches t') : List.Forall₂ Tree.Matches ts (ts.set j t') := by
  induction ts generalizing j with
  | nil => cases ht
  | cons u ts ih =>
    cases j with
    | zero =>
      obtain rfl : u = t := Option.some.inj ht
      exact .cons h (forall₂_matches_refl ts)
    | succ j => exact .cons (Tree.Matches.refl u) (ih ht)

/-- Only the words of the array matter. -/
lemma isPureRead_congr_array {r A A' : Node} (h : A'.focus.core = A.focus.core) :
    r.isPureRead A' = r.isPureRead A := by
  rw [← tokens_unwrap, ← tokens_unwrap] at h
  rw [isPureRead, isPureRead, h]

/-- It is enough to compare uses of arrays whose trees stay as they are. -/
lemma isPureRead_eq_of_follows {a a' r r' A A' : Node} (hA : Follows r a a' A A')
    (hr : r ∈ a.children) (hr' : r' ∈ a'.children) (hwords : r'.tokens = r.tokens)
    (h : A'.focus.core = A.focus.core → r'.isPureRead A' = r.isPureRead A) :
    r'.isPureRead A' = r.isPureRead A := by
  rcases hA with hA | ⟨htokens, ha, ha'⟩
  · exact h (Tree.core_congr hA)
  · rw [isPureRead_eq_false_of_isWithin hr htokens ha,
      isPureRead_eq_false_of_isWithin hr' (hwords ▸ htokens) ha']

/-- One pair of parentheses does not change whether a use reads an element of the array. -/
lemma isPureRead_of_regroups {x y : Node × Node} (h : Regroups x y) :
    y.1.isPureRead y.2 = x.1.isPureRead x.2 := by
  cases h with
  | @object a r r' o _ _ i j w hr ho hj hij hcontent hr' hA =>
    have hfocus : r'.focus = r.focus := by
      have hset := focus_of_getElem? hr'
      rw [replaceChild, Tree.children, List.getElem?_set_ne hij.symm, focus_of_getElem? hr] at hset
      exact (Option.some.inj hset).symm
    refine isPureRead_eq_of_follows hA (List.mem_of_getElem? hr) (List.mem_of_getElem? hr')
      (congrArg Tree.tokens hfocus) fun hcore => ?_
    exact isPureRead_congr_of_getElem? hr hr' rfl
      (forall₂_matches_set (focus_of_getElem? hj) (w.matches_around hcontent))
      (Placed.of_alike (Label.Alike.refl _) _) hcore
  | array w hcontent hA =>
    refine isPureRead_congr_array ?_
    rw [hA, w.core_around hcontent]
  | @access a r r' _ _ i w hr hcontent hr' hA =>
    have hfocus : r'.focus = r.focus := by
      have hchild := focus_of_getElem? hr'
      rw [inParens, Tree.detached, Tree.children, focus_of_getElem? hr] at hchild
      exact (Option.some.inj hchild).symm
    refine isPureRead_eq_of_follows hA (List.mem_of_getElem? hr) (List.mem_of_getElem? hr')
      (congrArg Tree.tokens hfocus) fun hcore => ?_
    by_cases hkind : a.kind = .subscript
    · have halike : a.label.Alike { w.label with field := a.label.field } := by
        refine ⟨rfl, iff_of_false ?_ ?_⟩
        · exact w.kind_eq.trans_ne (by decide)
        · exact hkind.trans_ne (by decide)
      exact isPureRead_congr_of_getElem? hr hr' rfl (forall₂_matches_refl _)
        (.wrapped w.kind_eq (.of_alike halike _)) hcore
    · rw [isPureRead_eq_false_of_kind (List.mem_of_getElem? hr) hkind,
        isPureRead_eq_false_of_kind (List.mem_of_getElem? hr') hkind]
  | elsewhere hr hfocus hplace hr' hA =>
    refine isPureRead_congr_of_getElem? hr hr' (congrArg (·.label.kind) hfocus) ?_ hplace
      (Tree.core_congr hA)
    rw [hfocus]
    exact forall₂_matches_refl _

/-- However many parentheses are put in, a use is a read in both cases or in neither. -/
lemma isPureRead_of_reflTransGen {x y : Node × Node} (h : Relation.ReflTransGen Regroups x y) :
    y.1.isPureRead y.2 = x.1.isPureRead x.2 := by
  induction h with
  | refl => rfl
  | tail _ hstep ih => exact (isPureRead_of_regroups hstep).trans ih

/-- Whether a use reads an element of the array does not depend on any parentheses around the object
of the access, around the array, or around the access.  Parentheses are taken away one pair after
the other, which comes to an end in every tree; then there is nothing more to take away.  What is
left stands in the tree of the node, and is a pair of parentheses only if nothing is in it. -/
theorem reads_keep_under_grouping :
    (∀ r A r' A' : Node, Relation.ReflTransGen Regroups (r, A) (r', A') →
      r'.isPureRead A' = r.isPureRead A) ∧
    (WellFounded fun m n : Node => n.Peels m) ∧
    ∀ n : Node, Relation.ReflTransGen Peels n n.unwrap ∧ n.unwrap.unwrap = n.unwrap ∧
      n.unwrap ∈ n.preorder ∧
      (n.unwrap.kind = .parenthesized → n.unwrap.namedChildren = []) := by
  refine ⟨fun r A r' A' h => isPureRead_of_reflTransGen h, wellFounded_peels, fun n => ?_⟩
  exact ⟨peels_unwrap n, unwrap_eq_self (not_peels_unwrap n),
    mem_preorder_of_peels (peels_unwrap n), namedChildren_unwrap⟩

/-- Parentheses with a comment in them. -/
def commentedParens : Parens where
  label := (Tree.branch .parenthesized none []).label
  before := [.leaf (.other "(") none false "(", .leaf .comment none true "/* c */"]
  after := [.leaf .closeParen none false ")"]
  kind_eq := rfl
  isContent_before := by decide
  isContent_after := by decide

/-- The name `a`. -/
def sketchedName (field : Option Field) : Tree :=
  .leaf .identifier field true "a"

/-- The access `a[i]` in `x = a[i]`. -/
def sketchedAccess : Node where
  focus := .branch .subscript (some .right)
    [sketchedName (some .object), .leaf (.other "[") none false "[",
      .leaf .identifier (some .index) true "i", .leaf (.other "]") none false "]"]
  above := [⟨(Tree.branch .assignment none []).label,
    [.leaf (.other "=") none false "=", .leaf .identifier (some .left) true "x"], []⟩]

/-- Parentheses around the object, the access and the array of `a[i]`, one after the other: what was
a read stays one. -/
theorem reads_keep_sketchedAccess : ∃ r r' A' : Node,
    sketchedAccess.child? .index = some r ∧
      Relation.ReflTransGen Regroups (r, ofTree (sketchedName none)) (r', A') ∧
      r'.above.length = r.above.length + 1 ∧ A'.kind = .parenthesized ∧
      r.isPureRead (ofTree (sketchedName none)) = true ∧ r'.isPureRead A' = true := by
  let w := commentedParens
  let access := sketchedAccess.replaceChild 0 (w.around (sketchedName (some .object)))
  obtain ⟨r, hindex, hr⟩ : ∃ r, sketchedAccess.child? .index = some r ∧
    sketchedAccess.children[2]? = some r := ⟨_, rfl, rfl⟩
  obtain ⟨r₁, hr₁⟩ : ∃ r₁, access.children[2]? = some r₁ := ⟨_, rfl⟩
  obtain ⟨r', hr'⟩ : ∃ r', (access.inParens w).children[2]? = some r' := ⟨_, rfl⟩
  have hobject : Regroups (r, ofTree (sketchedName none)) (r₁, ofTree (sketchedName none)) :=
    .object w hr rfl rfl (by decide) rfl hr₁ (.inl rfl)
  have haccess : Regroups (r₁, ofTree (sketchedName none)) (r', ofTree (sketchedName none)) :=
    .access w hr₁ rfl hr' (.inl rfl)
  have harray : Regroups (r', ofTree (sketchedName none))
      (r', ofTree (w.around (sketchedName none))) := .array w rfl rfl
  have hchain := Relation.ReflTransGen.head hobject (.head haccess (.single harray))
  have hread : r.isPureRead (ofTree (sketchedName none)) = true := by
    cases hindex
    decide +kernel
  refine ⟨r, r', _, hindex, hchain, ?_, rfl, hread, ?_⟩
  · cases hr
    cases hr'
    rfl
  · rw [reads_keep_under_grouping.1 _ _ _ _ hchain, hread]

end Node
end LoopLint
