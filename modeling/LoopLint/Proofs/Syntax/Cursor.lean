import LoopLint.Proofs.Syntax.Grouping

/-!
# Collecting words with a cursor

The words of a tree are defined by recursion over the tree.  They can also be collected in place, by
a cursor that moves through the tree: to the first child, on to the next sibling, and back to the
parent when there is none.  `Cursor.Visits` says what such a visit does at one node, and
`Cursor.VisitsRow` what it does along a row of siblings.  Where the cursor is after the visit of a
child decides where the row goes on, so it has to be proved that a visit ends at all.

The main result, `Cursor.visits_iff`, says that every visit ends and has one outcome: the words of
the node are added to those already found, and the cursor is back where it started.
-/

namespace LoopLint

namespace Cursor

/-- A step down to the first child. -/
def firstChild? (cursor : Node) : Option Node :=
  cursor.children.head?

/-- A step to the sibling on the right.  There is none at the node where the cursor was made. -/
def nextSibling? (cursor : Node) : Option Node :=
  match cursor.above with
  | ⟨label, left, t :: right⟩ :: above => some ⟨t, ⟨label, cursor.focus :: left, right⟩ :: above⟩
  | _ => none

/-- A step up to the parent; the cursor stays where it is if there is none. -/
def toParent (cursor : Node) : Node :=
  cursor.parent?.getD cursor

/-- Where the cursor is, and which words have been found. -/
structure State where
  cursor : Node
  found : List String

mutual

/-- A visit of the node at the cursor leads from one state to another.  Comments are not entered. -/
inductive Visits : State → State → Prop
  | comment {s : State} : s.cursor.kind.isComment = true → Visits s s
  | children {s last : State} {child : Node} :
    s.cursor.kind.isComment = false → firstChild? s.cursor = some child →
    VisitsRow ⟨child, s.found⟩ last → Visits s ⟨toParent last.cursor, last.found⟩
  | word {s : State} :
    s.cursor.kind.isComment = false → firstChild? s.cursor = none →
    s.cursor.label.range.start < s.cursor.label.range.stop →
    Visits s ⟨s.cursor, s.found ++ [s.cursor.text]⟩
  | empty {s : State} :
    s.cursor.kind.isComment = false → firstChild? s.cursor = none →
    ¬ s.cursor.label.range.start < s.cursor.label.range.stop → Visits s s

/-- Visits of the node at the cursor and of all siblings on its right. -/
inductive VisitsRow : State → State → Prop
  | last {s s' : State} : Visits s s' → nextSibling? s'.cursor = none → VisitsRow s s'
  | next {s s' last : State} {sibling : Node} :
    Visits s s' → nextSibling? s'.cursor = some sibling →
    VisitsRow ⟨sibling, s'.found⟩ last → VisitsRow s last

end

/-- The trees of the node at the cursor and of the siblings on its right. -/
def row (cursor : Node) : List Tree :=
  cursor.focus :: (cursor.above.head?.map (·.right)).getD []

/-! ### Moves -/

variable {n c d : Node}

/-- A node without a first child has no children. -/
lemma firstChild?_eq_none_iff : firstChild? n = none ↔ n.focus.children = [] := by
  rw [firstChild?, List.head?_eq_none_iff, ← Node.map_focus_children, List.map_eq_nil_iff]

/-- From the first child, the row is all children, and the node is the parent. -/
lemma of_firstChild? (h : firstChild? n = some c) :
    row c = n.focus.children ∧ toParent c = n := by
  have hc : c ∈ n.children := List.mem_of_mem_head? h
  refine ⟨?_, by rw [toParent, Node.parent?_of_mem_children hc, Option.getD_some]⟩
  obtain ⟨⟨l, ts⟩, above⟩ := n
  cases ts with
  | nil => cases h
  | cons t ts =>
    obtain rfl := Option.some.inj h
    rfl

/-- A node without a next sibling ends its row. -/
lemma row_of_nextSibling?_eq_none (h : nextSibling? c = none) : row c = [c.focus] := by
  obtain ⟨t, above⟩ := c
  match above, h with
  | [], _ => rfl
  | ⟨_, _, []⟩ :: _, _ => rfl

/-- From the next sibling, the row is shorter, and the parent is the same. -/
lemma of_nextSibling? (h : nextSibling? c = some d) :
    row c = c.focus :: row d ∧ toParent d = toParent c := by
  obtain ⟨t, above⟩ := c
  match above, h with
  | ⟨_, _, _ :: _⟩ :: _, h =>
    obtain rfl := Option.some.inj h
    exact ⟨rfl, rfl⟩

/-! ### Words found at a node -/

/-- A comment has no words. -/
lemma tokens_of_comment (h : n.kind.isComment = true) : n.tokens = [] := by
  obtain ⟨⟨l, cs⟩, above⟩ := n
  exact Tree.tokens_of_comment h cs

/-- The words of a node with children are those of the row that starts with the first child. -/
lemma tokens_of_firstChild? (h : n.kind.isComment = false) (hc : firstChild? n = some c) :
    n.tokens = (row c).flatMap Tree.tokens := by
  have hne : n.focus.children ≠ [] := by
    rw [ne_eq, ← firstChild?_eq_none_iff, hc]
    exact Option.some_ne_none c
  rw [(of_firstChild? hc).1, Node.tokens, Tree.tokens_eq_flatMap h hne]

/-- A leaf is one word if it covers some text. -/
lemma tokens_of_leaf (h : n.kind.isComment = false) (hleaf : firstChild? n = none) :
    n.tokens = if n.label.range.start < n.label.range.stop then [n.text] else [] := by
  rw [firstChild?_eq_none_iff] at hleaf
  obtain ⟨⟨l, cs⟩, above⟩ := n
  obtain rfl : cs = [] := hleaf
  have hl : l.kind.isComment = false := h
  rw [Node.tokens, Tree.tokens_node hl, Label.covers]
  simp only [List.isEmpty_nil, if_true, decide_eq_true_eq]
  rfl

/-! ### Visits -/

mutual

/-- After a visit the cursor is where it was, and the words of the node have been found. -/
theorem Visits.outcome : ∀ {s s' : State}, Visits s s' →
    s'.cursor = s.cursor ∧ s'.found = s.found ++ s.cursor.tokens
  | s, _, .comment hcomment => by
    rw [tokens_of_comment hcomment, List.append_nil]
    exact ⟨rfl, rfl⟩
  | s, _, .children hcomment hchild hrow => by
    obtain ⟨hparent, hfound⟩ := hrow.outcome
    rw [tokens_of_firstChild? hcomment hchild]
    exact ⟨hparent.trans (of_firstChild? hchild).2, hfound⟩
  | s, _, .word hcomment hchild hcovers => by
    rw [tokens_of_leaf hcomment hchild, if_pos hcovers]
    exact ⟨rfl, rfl⟩
  | s, _, .empty hcomment hchild hcovers => by
    rw [tokens_of_leaf hcomment hchild, if_neg hcovers, List.append_nil]
    exact ⟨rfl, rfl⟩

/-- Along a row the words of its nodes are found, and the parent stays the same. -/
theorem VisitsRow.outcome : ∀ {s s' : State}, VisitsRow s s' →
    toParent s'.cursor = toParent s.cursor ∧
      s'.found = s.found ++ (row s.cursor).flatMap Tree.tokens
  | s, s', .last hvisit hnone => by
    obtain ⟨hcursor, hfound⟩ := hvisit.outcome
    rw [hcursor] at hnone ⊢
    rw [hfound, row_of_nextSibling?_eq_none hnone, List.flatMap_singleton]
    exact ⟨rfl, rfl⟩
  | s, s', .next hvisit hnext hrest => by
    obtain ⟨hcursor, hfound⟩ := hvisit.outcome
    obtain ⟨hparent, hrow⟩ := hrest.outcome
    rw [hcursor] at hnext
    obtain ⟨hsplit, hparent'⟩ := of_nextSibling? hnext
    refine ⟨hparent.trans hparent', ?_⟩
    rw [hrow, hfound, hsplit, List.flatMap_cons, List.append_assoc]
    rfl

end

/-- A row can be visited if each of its nodes can. -/
lemma exists_visitsRow (label : Label) (above : List Frame) (left : List Tree) (t : Tree)
    (right : List Tree) (h : ∀ c ∈ Node.siblings label above left (t :: right),
      ∀ found, ∃ s, Visits ⟨c, found⟩ s) (found : List String) :
    ∃ s, VisitsRow ⟨⟨t, ⟨label, left, right⟩ :: above⟩, found⟩ s := by
  induction right generalizing left t found with
  | nil =>
    obtain ⟨s, hvisit⟩ := h _ List.mem_cons_self found
    exact ⟨s, .last hvisit (by rw [hvisit.outcome.1]; rfl)⟩
  | cons u right ih =>
    obtain ⟨s, hvisit⟩ := h _ List.mem_cons_self found
    obtain ⟨last, hrest⟩ := ih (t :: left) u (fun c hc => h c (List.mem_cons_of_mem _ hc)) s.found
    exact ⟨last, .next hvisit (by rw [hvisit.outcome.1]; rfl) hrest⟩

/-- Every visit ends. -/
lemma exists_visits (cursor : Node) (found : List String) : ∃ s, Visits ⟨cursor, found⟩ s := by
  induction cursor using Node.childrenInduction generalizing found with
  | step n ih =>
    cases hn : n.kind.isComment with
    | true => exact ⟨_, .comment hn⟩
    | false =>
      cases hchild : firstChild? n with
      | none =>
        by_cases hcovers : n.label.range.start < n.label.range.stop
        · exact ⟨_, .word hn hchild hcovers⟩
        · exact ⟨_, .empty hn hchild hcovers⟩
      | some child =>
        obtain ⟨⟨l, ts⟩, above⟩ := n
        cases ts with
        | nil => cases hchild
        | cons t right =>
          obtain ⟨last, hrow⟩ := exists_visitsRow l above [] t right ih found
          obtain rfl := Option.some.inj hchild
          exact ⟨_, .children hn hchild hrow⟩

/-- Every visit ends, and there is one way for it to end: the words of the node have been found,
after those found before, and the cursor is back where it started. -/
theorem visits_iff {s s' : State} :
    Visits s s' ↔ s' = ⟨s.cursor, s.found ++ s.cursor.tokens⟩ := by
  have heq : ∀ {u : State}, Visits s u → u = ⟨s.cursor, s.found ++ s.cursor.tokens⟩ := by
    intro u hvisit
    rw [← hvisit.outcome.2, ← hvisit.outcome.1]
  constructor
  · exact heq
  · rintro rfl
    obtain ⟨u, hvisit⟩ := exists_visits s.cursor s.found
    rwa [heq hvisit] at hvisit

end Cursor
end LoopLint
