import LoopLint.Proofs.Syntax.Descent
import LoopLint.Proofs.Text.Position
import Mathlib.Data.List.Pairwise

/-!
# Where nodes stand

A parser gives each node the bytes that it covers and the text that stands there (`Label.ReadFrom`).
The ranges of the children of a node lie inside the range of the node, one behind the other, and a
`for` statement begins with its keyword.  In such a tree no two `for` statements start at the same
byte: in the order of the text their starts are strictly increasing
(`Tree.Nested.pairwise_inOrder`).
-/

namespace LoopLint

/-- The node covers a piece of the text: it knows where the piece starts and ends, in bytes and in
rows and columns, and what it reads. -/
def Label.ReadFrom (cs : List Char) (l : Label) : Prop :=
  Text.IsOffset cs l.range.start ∧ Text.IsOffset cs l.range.stop ∧
    l.start = Text.pointAt cs l.range.start ∧ l.stop = Text.pointAt cs l.range.stop ∧
    l.text = String.ofList (Text.slice cs l.range)

instance (cs : List Char) : DecidablePred (Label.ReadFrom cs) := fun l =>
  inferInstanceAs (Decidable (Text.IsOffset cs l.range.start ∧ Text.IsOffset cs l.range.stop ∧
    l.start = Text.pointAt cs l.range.start ∧ l.stop = Text.pointAt cs l.range.stop ∧
    l.text = String.ofList (Text.slice cs l.range)))

namespace Tree

/-- The first of some trees is the keyword `for`. -/
def BeginWithFor : List Tree → Prop
  | node l [] :: _ => l.text = "for" ∧ l.range.start < l.range.stop
  | _ => False

instance : DecidablePred BeginWithFor
  | [] => isFalse id
  | node l [] :: _ => inferInstanceAs (Decidable (l.text = "for" ∧ l.range.start < l.range.stop))
  | node _ (_ :: _) :: _ => isFalse id

mutual

/-- The ranges of the tree are properly nested, and each `for` statement begins with `for`. -/
def Nested : Tree → Prop
  | node l cs => (l.kind = .forStatement → BeginWithFor cs) ∧
      NestedBetween l.range.start l.range.stop cs

/-- The ranges of some trees lie between two bytes, one behind the other, and each of the trees is
nested. -/
def NestedBetween (start stop : Nat) : List Tree → Prop
  | [] => start ≤ stop
  | t :: ts => start ≤ t.label.range.start ∧ t.Nested ∧ NestedBetween t.label.range.stop stop ts

end

mutual

/-- It can be decided whether a tree is nested. -/
def decidableNested : (t : Tree) → Decidable t.Nested
  | node l cs =>
    have := decidableNestedBetween l.range.start l.range.stop cs
    decidable_of_iff ((l.kind = .forStatement → BeginWithFor cs) ∧
      NestedBetween l.range.start l.range.stop cs) (by rw [Nested])

/-- It can be decided whether some trees are nested between two bytes. -/
def decidableNestedBetween (start stop : Nat) :
    (ts : List Tree) → Decidable (NestedBetween start stop ts)
  | [] => decidable_of_iff (start ≤ stop) (by rw [NestedBetween])
  | t :: ts =>
    have := decidableNested t
    have := decidableNestedBetween t.label.range.stop stop ts
    decidable_of_iff (start ≤ t.label.range.start ∧ t.Nested ∧
      NestedBetween t.label.range.stop stop ts) (by rw [NestedBetween])

end

instance (t : Tree) : Decidable t.Nested := decidableNested t

mutual

/-- A tree does not stop before it starts. -/
lemma Nested.start_le_stop : {t : Tree} → t.Nested → t.label.range.start ≤ t.label.range.stop
  | node l cs, h => by
    rw [Nested] at h
    exact h.2.start_le_stop

/-- A row of trees does not stop before it starts. -/
lemma NestedBetween.start_le_stop {start stop : Nat} : {ts : List Tree} →
    NestedBetween start stop ts → start ≤ stop
  | [], h => by rwa [NestedBetween] at h
  | t :: ts, h => by
    rw [NestedBetween] at h
    obtain ⟨hstart, ht, hts⟩ := h
    have hle := ht.start_le_stop
    have hrest := hts.start_le_stop
    omega

end

mutual

/-- All subtrees of a nested tree are nested, and lie in its range. -/
lemma Nested.of_mem_subtrees : {t : Tree} → t.Nested → ∀ u ∈ t.subtrees,
    u.Nested ∧ t.label.range.start ≤ u.label.range.start ∧ u.label.range.stop ≤ t.label.range.stop
  | node l cs, h, u, hu => by
    rw [subtrees, List.mem_cons] at hu
    rcases hu with rfl | hu
    · exact ⟨h, Nat.le_refl _, Nat.le_refl _⟩
    · rw [Nested] at h
      exact h.2.of_mem_subtreesOf u hu

/-- All that stands in a row lies between its start and its stop. -/
lemma NestedBetween.of_mem_subtreesOf {start stop : Nat} : {ts : List Tree} →
    NestedBetween start stop ts → ∀ u ∈ subtreesOf ts,
      u.Nested ∧ start ≤ u.label.range.start ∧ u.label.range.stop ≤ stop
  | [], _, u, hu => by
    rw [subtreesOf] at hu
    cases hu
  | t :: ts, h, u, hu => by
    rw [NestedBetween] at h
    obtain ⟨hstart, ht, hts⟩ := h
    have hle := ht.start_le_stop
    have hrest := hts.start_le_stop
    rw [subtreesOf, List.mem_append] at hu
    rcases hu with hu | hu
    · obtain ⟨hnested, hlow, hhigh⟩ := ht.of_mem_subtrees u hu
      exact ⟨hnested, by omega, by omega⟩
    · obtain ⟨hnested, hlow, hhigh⟩ := hts.of_mem_subtreesOf u hu
      exact ⟨hnested, by omega, by omega⟩

end

/-- A `for` statement begins with a word of its own, and all other subtrees stand behind it. -/
lemma Nested.exists_for {l : Label} {cs : List Tree} (h : (node l cs).Nested)
    (hkind : l.kind = .forStatement) :
    ∃ word rest, cs = node word [] :: rest ∧ word.kind ≠ .forStatement ∧
      l.range.start < word.range.stop ∧ NestedBetween word.range.stop l.range.stop rest := by
  rw [Nested] at h
  obtain ⟨hfor, hbetween⟩ := h
  have hbegin := hfor hkind
  match cs, hbegin with
  | node word [] :: rest, hword =>
    rw [NestedBetween] at hbetween
    obtain ⟨hstart, hnested, hrest⟩ := hbetween
    refine ⟨word, rest, rfl, ?_, Nat.lt_of_le_of_lt hstart hword.2, hrest⟩
    intro hwordKind
    rw [Nested] at hnested
    exact hnested.1 hwordKind

/-- The `for` statements among some trees are in the order of the text. -/
def InOrder (t u : Tree) : Prop :=
  t.label.kind = .forStatement → u.label.kind = .forStatement →
    t.label.range.start < u.label.range.start

mutual

/-- In the order of the text, the starts of the `for` statements of a nested tree are strictly
increasing. -/
theorem Nested.pairwise_inOrder : {t : Tree} → t.Nested → t.subtrees.Pairwise InOrder
  | node l cs, h => by
    have hbetween : NestedBetween l.range.start l.range.stop cs := by
      rw [Nested] at h
      exact h.2
    rw [subtrees, List.pairwise_cons]
    refine ⟨fun u hu hkind hukind => ?_, hbetween.pairwise_inOrder⟩
    obtain ⟨word, rest, rfl, hword, hlt, hrest⟩ := h.exists_for hkind
    rw [subtreesOf, subtrees, subtreesOf, List.cons_append, List.nil_append, List.mem_cons] at hu
    rcases hu with rfl | hu
    · exact absurd hukind hword
    · exact Nat.lt_of_lt_of_le hlt (hrest.of_mem_subtreesOf u hu).2.1

/-- What stands in a row is listed in the order of the text, outer before inner. -/
theorem NestedBetween.pairwise_inOrder {start stop : Nat} : {ts : List Tree} →
    NestedBetween start stop ts → (subtreesOf ts).Pairwise InOrder
  | [], _ => by
    rw [subtreesOf]
    exact List.Pairwise.nil
  | t :: ts, h => by
    rw [NestedBetween] at h
    obtain ⟨-, ht, hts⟩ := h
    rw [subtreesOf, List.pairwise_append]
    refine ⟨ht.pairwise_inOrder, hts.pairwise_inOrder, fun u hu v hv hukind _ => ?_⟩
    -- `u` ends before `v` starts, and it is not empty since it begins with a word
    obtain ⟨hnested, -, hustop⟩ := ht.of_mem_subtrees u hu
    have hvstart := (hts.of_mem_subtreesOf v hv).2.1
    have hnonempty : u.label.range.start < u.label.range.stop := by
      obtain ⟨l, cs⟩ := u
      obtain ⟨word, rest, -, -, hlt, hrest⟩ := hnested.exists_for hukind
      exact Nat.lt_of_lt_of_le hlt hrest.start_le_stop
    omega

end

end Tree

/-! ### Different statements -/

/-- Different `for` statements of a nested tree start at different bytes. -/
lemma Node.start_ne_of_ne {t : Tree} (h : t.Nested) {m m' : Node}
    (hm : m ∈ (Node.ofTree t).preorder) (hm' : m' ∈ (Node.ofTree t).preorder)
    (hkind : m.kind = .forStatement) (hkind' : m'.kind = .forStatement) (hne : m ≠ m') :
    m.label.range.start ≠ m'.label.range.start := by
  have hpairwise : (Node.ofTree t).preorder.Pairwise fun m m' =>
      m.kind = .forStatement → m'.kind = .forStatement →
        m.label.range.start ≠ m'.label.range.start := by
    have horder := h.pairwise_inOrder
    rw [show t = (Node.ofTree t).focus from rfl, ← map_focus_preorder, List.pairwise_map] at horder
    refine horder.imp fun hlt hkind hkind' => ?_
    exact Nat.ne_of_lt (hlt hkind hkind')
  have hsymm : Std.Symm fun m m' : Node => m.kind = .forStatement → m'.kind = .forStatement →
      m.label.range.start ≠ m'.label.range.start :=
    ⟨fun m m' hne hkind' hkind => (hne hkind hkind').symm⟩
  exact hpairwise.forall hm hm' hne hkind hkind'

end LoopLint
