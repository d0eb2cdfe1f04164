import LoopLint.Proofs.Syntax.Descent
import LoopLint.Suppression

/-!
# What suppression comments cover

A comment with the directive `forof-ignore` silences what starts on the row where the comment ends,
and what starts on the row below if nothing but blanks stands before the comment on its first line
(`Node.Silences`).  The linter collects these rows from all comments of the tree
(`Suppression.covers_eq_true_iff`).

The documentation promises something else (`Node.Promises`): a directive covers every row that it
stands on, and reaches the row below only if it stands alone, with nothing but blanks before it and
behind it.  The two agree on directives that stand on one row and are the last thing on it, as all
directives behind `//` do.  On others they may differ, in the two ways that `covers_iff_silences`
names; `blockDirectiveSource` shows both.
-/

namespace LoopLint

variable {n c : Node} {source : String} {row : Nat}

/-! ### Lines -/

namespace Text

/-- Only blanks stand on the line before the offset. -/
def BlankBefore (cs : List Char) (offset : Nat) : Prop :=
  ∃ earlier line, takeBytes offset cs = earlier ++ line ∧
    (earlier = [] ∨ earlier.getLast? = some '\n') ∧ ∀ c ∈ line, c ≠ '\n' ∧ isBlank c = true

/-- Only blanks stand on the line from the offset on. -/
def BlankAfter (cs : List Char) (offset : Nat) : Prop :=
  ∃ line later, dropBytes offset cs = line ++ later ∧
    (later = [] ∨ later.head? = some '\n') ∧ ∀ c ∈ line, c ≠ '\n' ∧ isBlank c = true

/-- A text begins with a line of blanks if there is nothing else before its first line feed. -/
lemma all_isBlank_takeWhile_iff {cs : List Char} :
    (cs.takeWhile (· ≠ '\n')).all isBlank = true ↔
      ∃ line later, cs = line ++ later ∧ (later = [] ∨ later.head? = some '\n') ∧
        ∀ c ∈ line, c ≠ '\n' ∧ isBlank c = true := by
  constructor
  · intro h
    refine ⟨cs.takeWhile (· ≠ '\n'), cs.dropWhile (· ≠ '\n'),
      List.takeWhile_append_dropWhile.symm, ?_, fun c hc => ⟨?_, List.all_eq_true.mp h c hc⟩⟩
    · cases hrest : cs.dropWhile (· ≠ '\n') with
      | nil => exact Or.inl rfl
      | cons c rest =>
        have hc := List.head?_dropWhile_not (· ≠ '\n') cs
        rw [hrest] at hc
        simpa using hc
    · simpa using List.all_eq_true.mp (List.all_takeWhile (p := (· ≠ '\n')) (l := cs)) c hc
  · rintro ⟨line, later, rfl, hlater, hline⟩
    induction line with
    | nil =>
      rcases hlater with rfl | hlater
      · rfl
      · cases later with
        | nil => rfl
        | cons c later =>
          obtain rfl : c = '\n' := by simpa using hlater
          rfl
    | cons c line ih =>
      obtain ⟨hc, hline⟩ := List.forall_mem_cons.mp hline
      simpa [hc.1, hc.2] using ih hline

/-- Only blanks follow an offset if the rest of its line is all blank. -/
lemma blankAfter_iff {cs : List Char} {offset : Nat} :
    BlankAfter cs offset ↔ ((dropBytes offset cs).takeWhile (· ≠ '\n')).all isBlank = true :=
  all_isBlank_takeWhile_iff.symm

end Text

/-- The linter's test for what stands before a comment, which reads the line backwards. -/
lemma Suppression.startsLine_eq_true_iff {cs : List Char} {offset : Nat} :
    startsLine cs offset = true ↔ Text.BlankBefore cs offset := by
  rw [startsLine, Text.lineBefore, Text.all_isBlank_takeWhile_iff]
  constructor
  · rintro ⟨line, later, h, hlater, hline⟩
    refine ⟨later.reverse, line.reverse, ?_, ?_, by simpa using hline⟩
    · rw [← List.reverse_append, ← h, List.reverse_reverse]
    · simpa using hlater
  · rintro ⟨earlier, line, h, hearlier, hline⟩
    refine ⟨line.reverse, earlier.reverse, ?_, ?_, by simpa using hline⟩
    · rw [h, List.reverse_append]
    · simpa using hearlier

/-! ### Comments -/

namespace Node

/-- `c` is a comment in the subtree of `n`.  What a comment itself is made of does not count. -/
def HasComment (n c : Node) : Prop :=
  c.kind.isComment = true ∧ Via (·.kind.isComment = false) n c

/-- The comments of a tree whose comments have nothing below them are the nodes of that kind. -/
lemma hasComment_iff_mem_preorder
    (h : ∀ c ∈ n.preorder, c.kind.isComment = true → c.children = []) :
    n.HasComment c ↔ c ∈ n.preorder ∧ c.kind.isComment = true := by
  constructor
  · rintro ⟨hc, hway⟩
    exact ⟨hway.1, hc⟩
  · rintro ⟨hmem, hc⟩
    refine ⟨hc, hmem, fun t ht hct => ?_⟩
    cases hk : t.kind.isComment with
    | false => exact Or.inr hk
    | true =>
      rcases mem_preorder_iff.mp hct with heq | ⟨d, hd, -⟩
      · exact Or.inl heq.symm
      · rw [h t ht hk] at hd
        cases hd

/-- A comment holds no comment but itself. -/
lemma hasComment_self_iff (hn : n.kind.isComment = true) : n.HasComment c ↔ c = n := by
  constructor
  · rintro ⟨-, hway⟩
    rcases hway.2 n (self_mem_preorder n) hway.1 with heq | hnot
    · exact heq.symm
    · rw [hn] at hnot
      cases hnot
  · rintro rfl
    exact ⟨hn, Via.refl _ c⟩

/-- The comments of a node that is none itself are those of its children. -/
lemma hasComment_iff_exists_child (hn : n.kind.isComment = false) :
    n.HasComment c ↔ ∃ d ∈ n.children, d.HasComment c := by
  constructor
  · rintro ⟨hc, hway⟩
    rcases mem_preorder_iff.mp hway.1 with rfl | ⟨d, hd, hcd⟩
    · rw [hn] at hc
      cases hc
    · exact ⟨d, hd, hc, hcd, fun t ht => hway.2 t (mem_preorder_of_mem_preorder_child hd ht)⟩
  · rintro ⟨d, hd, hc, hway⟩
    exact ⟨hc, hway.child hn hd⟩

/-- The linter collects the comments of the subtree. -/
lemma mem_comments_iff {x : Label} : x ∈ n.focus.comments ↔ ∃ c, n.HasComment c ∧ c.label = x := by
  induction n using childrenInduction with
  | step n ih =>
    cases hn : n.kind.isComment with
    | true =>
      have hlist : n.focus.comments = [n.label] := by
        obtain ⟨⟨label, ts⟩, above⟩ := n
        have hlabel : label.kind.isComment = true := hn
        rw [Tree.comments, hlabel]
        rfl
      simp [hlist, hasComment_self_iff hn, eq_comm]
    | false =>
      rw [Tree.comments_eq hn, ← map_focus_children, List.mem_flatMap]
      simp only [List.mem_map, exists_exists_and_eq_and, hasComment_iff_exists_child hn]
      constructor
      · rintro ⟨d, hd, hx⟩
        obtain ⟨c, hc, hlabel⟩ := (ih d hd).mp hx
        exact ⟨c, ⟨d, hd, hc⟩, hlabel⟩
      · rintro ⟨c, ⟨d, hd, hc⟩, hlabel⟩
        exact ⟨d, hd, (ih d hd).mpr ⟨c, hc, hlabel⟩⟩

/-! ### Rows -/

/-- `c` is a comment in the subtree of `n` that says `forof-ignore`. -/
def HasDirective (n c : Node) : Prop :=
  n.HasComment c ∧ Directive.ofComment? c.text = some .ignore

/-- A directive in the subtree silences the row: it ends on the row, or on the row above, and then
only blanks stand before it on its first line. -/
def Silences (source : String) (n : Node) (row : Nat) : Prop :=
  ∃ c, n.HasDirective c ∧
    (c.label.stop.row = row ∨
      c.label.stop.row + 1 = row ∧ Text.BlankBefore source.toList c.label.range.start)

/-- A directive in the subtree silences the row according to the documentation: it stands on the
row, or it ends on the row above and stands alone on its lines. -/
def Promises (source : String) (n : Node) (row : Nat) : Prop :=
  ∃ c, n.HasDirective c ∧
    (c.label.start.row ≤ row ∧ row ≤ c.label.stop.row ∨
      c.label.stop.row + 1 = row ∧ Text.BlankBefore source.toList c.label.range.start ∧
        Text.BlankAfter source.toList c.label.range.stop)

/-- A directive of a node is a comment of its tree that asks to silence a line. -/
lemma exists_hasDirective_iff {p : Label → Prop} :
    (∃ c, n.HasDirective c ∧ p c.label) ↔
      ∃ x ∈ n.focus.comments, Directive.ofComment? x.text = some .ignore ∧ p x := by
  constructor
  · rintro ⟨c, ⟨hc, hd⟩, hp⟩
    exact ⟨c.label, mem_comments_iff.mpr ⟨c, hc, rfl⟩, hd, hp⟩
  · rintro ⟨x, hx, hd, hp⟩
    obtain ⟨c, hc, rfl⟩ := mem_comments_iff.mp hx
    exact ⟨c, ⟨hc, hd⟩, hp⟩

end Node

/-- The rows of a comment. -/
lemma Suppression.mem_rowsOf_iff {cs : List Char} {c : Label} :
    row ∈ rowsOf cs c ↔
      Directive.ofComment? c.text = some .ignore ∧
        (c.stop.row = row ∨ c.stop.row + 1 = row ∧ Text.BlankBefore cs c.range.start) := by
  rw [← startsLine_eq_true_iff, rowsOf]
  by_cases hd : Directive.ofComment? c.text = some .ignore
  · by_cases hs : startsLine cs c.range.start = true <;> simp [hd, hs, eq_comm]
  · simp [hd]

/-- The rows that the linter has collected are those that the comments silence. -/
theorem Suppression.covers_eq_true_iff {root : Node} :
    (ofTree source root.focus).covers row = true ↔ root.Silences source row := by
  have hlist := Node.exists_hasDirective_iff (n := root) (p := fun x => x.stop.row = row ∨
    x.stop.row + 1 = row ∧ Text.BlankBefore source.toList x.range.start)
  rw [covers, List.contains_iff_mem, ofTree, List.mem_flatMap, Node.Silences, hlist]
  simp only [mem_rowsOf_iff]

namespace Node

/-- Where more is silenced than is promised, something stands behind a directive on the row above.
-/
lemma Silences.promises_or (hrows : ∀ c, n.HasDirective c → c.label.start.row ≤ c.label.stop.row)
    (h : n.Silences source row) :
    n.Promises source row ∨
      ∃ c, n.HasDirective c ∧ c.label.stop.row + 1 = row ∧
        Text.BlankBefore source.toList c.label.range.start ∧
        ¬ Text.BlankAfter source.toList c.label.range.stop := by
  obtain ⟨c, hc, hend | ⟨hend, hbefore⟩⟩ := h
  · have hle := hrows c hc
    exact Or.inl ⟨c, hc, Or.inl ⟨by omega, by omega⟩⟩
  · by_cases hafter : Text.BlankAfter source.toList c.label.range.stop
    · exact Or.inl ⟨c, hc, Or.inr ⟨hend, hbefore, hafter⟩⟩
    · exact Or.inr ⟨c, hc, hend, hbefore, hafter⟩

/-- Where less is silenced than is promised, a directive goes on behind the row. -/
lemma Promises.silences_or (h : n.Promises source row) :
    n.Silences source row ∨
      ∃ c, n.HasDirective c ∧ c.label.start.row ≤ row ∧ row < c.label.stop.row := by
  obtain ⟨c, hc, ⟨hstart, hstop⟩ | ⟨hend, hbefore, -⟩⟩ := h
  · rcases Nat.lt_or_eq_of_le hstop with hlt | heq
    · exact Or.inr ⟨c, hc, hstart, hlt⟩
    · exact Or.inl ⟨c, hc, Or.inl heq.symm⟩
  · exact Or.inl ⟨c, hc, Or.inr ⟨hend, hbefore⟩⟩

/-- Directives that stand on one row and are the last thing on it silence what is promised. -/
lemma silences_iff_promises
    (h : ∀ c, n.HasDirective c → c.label.start.row = c.label.stop.row ∧
      Text.BlankAfter source.toList c.label.range.stop) :
    n.Silences source row ↔ n.Promises source row := by
  constructor
  · intro hs
    rcases hs.promises_or fun c hc => Nat.le_of_eq (h c hc).1 with hp | ⟨c, hc, -, -, hafter⟩
    · exact hp
    · exact absurd (h c hc).2 hafter
  · intro hp
    rcases hp.silences_or with hs | ⟨c, hc, hstart, hstop⟩
    · exact hs
    · have heq := (h c hc).1
      omega

end Node

/-- What is silenced, in every tree and for every node: what starts on the row where a directive
ends, and on the row below if only blanks stand before the directive on its first line.

More than the documentation promises is silenced only where something stands behind a directive on
the row above, and less only beside a directive that goes on behind the row.  If every directive
stands on one row and is the last thing on it, the documentation is right.  (A directive is any
comment of the tree with these words, as comments have nothing below them.) -/
theorem covers_iff_silences (source : String) (root : Node) :
    (∀ n : Node, (Suppression.ofTree source root.focus).covers n.label.start.row = true ↔
      root.Silences source n.label.start.row) ∧
      (∀ row, (∀ c, root.HasDirective c → c.label.start.row ≤ c.label.stop.row) →
        root.Silences source row → ¬ root.Promises source row →
          ∃ c, root.HasDirective c ∧ c.label.stop.row + 1 = row ∧
            Text.BlankBefore source.toList c.label.range.start ∧
            ¬ Text.BlankAfter source.toList c.label.range.stop) ∧
      (∀ row, root.Promises source row → ¬ root.Silences source row →
        ∃ c, root.HasDirective c ∧ c.label.start.row ≤ row ∧ row < c.label.stop.row) ∧
      ((∀ c, root.HasDirective c → c.label.start.row = c.label.stop.row ∧
          Text.BlankAfter source.toList c.label.range.stop) →
        ∀ n : Node, (Suppression.ofTree source root.focus).covers n.label.start.row = true ↔
          root.Promises source n.label.start.row) ∧
      ((∀ c ∈ root.preorder, c.kind.isComment = true → c.children = []) →
        ∀ c, root.HasDirective c ↔ (c ∈ root.preorder ∧ c.kind.isComment = true) ∧
          Directive.ofComment? c.text = some .ignore) := by
  refine ⟨fun n => Suppression.covers_eq_true_iff, fun row hrows hs hp => ?_, fun row hp hs => ?_,
    fun h n => ?_, fun h c => and_congr_left' (Node.hasComment_iff_mem_preorder h)⟩
  · exact (hs.promises_or hrows).resolve_left hp
  · exact hp.silences_or.resolve_left hs
  · rw [Suppression.covers_eq_true_iff]
    exact Node.silences_iff_promises h

/-! ### A directive over two rows -/

namespace Node

instance (cs : List Char) (offset : Nat) : Decidable (Text.BlankBefore cs offset) :=
  decidable_of_iff _ Suppression.startsLine_eq_true_iff

instance (cs : List Char) (offset : Nat) : Decidable (Text.BlankAfter cs offset) :=
  decidable_of_iff _ Text.blankAfter_iff.symm

instance (source : String) (n : Node) (row : Nat) : Decidable (n.Promises source row) :=
  decidable_of_iff _ (exists_hasDirective_iff (n := n) (p := fun x =>
    x.start.row ≤ row ∧ row ≤ x.stop.row ∨
      x.stop.row + 1 = row ∧ Text.BlankBefore source.toList x.range.start ∧
        Text.BlankAfter source.toList x.range.stop)).symm

end Node

/-- A directive that starts on one row and ends on the next, with a statement behind it. -/
def blockDirectiveSource : String :=
  "/* forof-ignore\n*/ x;\ny;"

/-- The nodes of `blockDirectiveSource`. -/
def blockDirectiveEntries : List PreorderEntry :=
  [ ⟨0, "program", "", true, ⟨0, 24⟩⟩,
    ⟨1, "comment", "", true, ⟨0, 18⟩⟩,
    ⟨1, "expression_statement", "", true, ⟨19, 21⟩⟩,
    ⟨2, "identifier", "", true, ⟨19, 20⟩⟩,
    ⟨2, ";", "", false, ⟨20, 21⟩⟩,
    ⟨1, "expression_statement", "", true, ⟨22, 24⟩⟩,
    ⟨2, "identifier", "", true, ⟨22, 23⟩⟩,
    ⟨2, ";", "", false, ⟨23, 24⟩⟩ ]

/-- The row below the directive is silenced although a statement stands behind the directive, and
the row where it starts is not. -/
theorem covers_ne_promises_blockDirective :
    ∃ t ∈ Tree.read? blockDirectiveSource blockDirectiveEntries,
      (∃ n ∈ (Node.ofTree t).preorder,
        (Suppression.ofTree blockDirectiveSource t).covers n.label.start.row = true ∧
          ¬ (Node.ofTree t).Promises blockDirectiveSource n.label.start.row) ∧
      ∃ n ∈ (Node.ofTree t).preorder,
        (Suppression.ofTree blockDirectiveSource t).covers n.label.start.row = false ∧
          (Node.ofTree t).Promises blockDirectiveSource n.label.start.row := by
  decide +kernel

end LoopLint
