import LoopLint.Proofs.Syntax.Renaming
import LoopLint.Proofs.Syntax.Spans
import LoopLint.Suppression
import Mathlib.Data.List.Forall2
import Mathlib.Data.List.Induction

/-!
# Comments of a renamed text

When the words of a text are renamed, what stands between them stays, and so do the comments
(`Tree.RenamedText`).  A comment silences the same rows then, with one exception: whether it is the
first thing on its line depends on the words before it.  A word that is not blank may be renamed to
one that is.

Nothing changes if every word leaves a line as blank as its new spelling does
(`Text.BlankAlike`).  The line before a comment is read piece by piece, a gap and a word or comment
at a time, and each piece keeps whether the line is blank so far (`Label.Renamed.blankBehind_eq`).
By induction over the pieces this holds at every comment (`Label.InRow.startsLine_eq`).
-/

namespace LoopLint

variable {ρ : String → String}

/-! ### Lines that are blank so far -/

namespace Text

/-- Whether a line is blank behind a text, given whether it was blank before the text. -/
def blankBehind (blank : Bool) (cs : List Char) : Bool :=
  cs.foldl (fun blank c => c == '\n' || (blank && isBlank c)) blank

/-- Two texts that leave a line blank in the same cases.  A word and its new spelling do so if both
have something on their last line, or if both are blank there and both have a line feed or none. -/
def BlankAlike (cs cs' : List Char) : Prop :=
  ∀ blank, blankBehind blank cs' = blankBehind blank cs

instance (cs cs' : List Char) : Decidable (BlankAlike cs cs') :=
  inferInstanceAs (Decidable (∀ blank, blankBehind blank cs' = blankBehind blank cs))

/-- Behind two texts a line is as blank as it is behind the second, which starts behind the first.
-/
lemma blankBehind_append (blank : Bool) (cs ds : List Char) :
    blankBehind blank (cs ++ ds) = blankBehind (blankBehind blank cs) ds :=
  List.foldl_append

/-- The line at the end of a text is blank if reading the text leaves it blank. -/
lemma all_isBlank_takeWhile (cs : List Char) :
    (cs.reverse.takeWhile (· ≠ '\n')).all isBlank = blankBehind true cs := by
  induction cs using List.reverseRecOn with
  | nil => rfl
  | append_singleton cs c ih =>
    rw [blankBehind_append, ← ih, List.reverse_concat, blankBehind, List.foldl_cons, List.foldl_nil]
    by_cases hc : c = '\n'
    · rw [List.takeWhile_cons_of_neg (by simpa using hc), hc]
      rfl
    · rw [List.takeWhile_cons_of_pos (by simpa using hc), List.all_cons, beq_false_of_ne hc,
        Bool.false_or, Bool.and_comm]

end Text

/-- Only blanks stand before an offset on its line if reading up to the offset leaves the line
blank. -/
lemma Suppression.startsLine_eq (source : List Char) (offset : Nat) :
    startsLine source offset = Text.blankBehind true (Text.takeBytes offset source) :=
  Text.all_isBlank_takeWhile _

/-! ### Words and comments in a text -/

namespace Label

/-- The labels are those of pieces of a text that stand one behind the other, from the byte `start`
on. -/
def InRow (cs : List Char) : Nat → List Label → Prop
  | _, [] => True
  | start, l :: ls => start ≤ l.range.start ∧ l.range.start ≤ l.range.stop ∧ l.ReadFrom cs ∧
      InRow cs l.range.stop ls

/-- What stands before, between and behind some pieces of a text, from the byte `start` on. -/
def gaps (cs : List Char) : Nat → List Label → List (List Char)
  | start, [] => [Text.dropBytes start cs]
  | start, l :: ls => Text.slice cs ⟨start, l.range.start⟩ :: gaps cs l.range.stop ls

/-- It can be decided whether some pieces stand in a row. -/
def decidableInRow (cs : List Char) :
    (start : Nat) → (ls : List Label) → Decidable (InRow cs start ls)
  | _, [] => isTrue trivial
  | start, l :: ls =>
    have := decidableInRow cs l.range.stop ls
    inferInstanceAs (Decidable (start ≤ l.range.start ∧ l.range.start ≤ l.range.stop ∧
      l.ReadFrom cs ∧ InRow cs l.range.stop ls))

instance (cs : List Char) (start : Nat) (ls : List Label) : Decidable (InRow cs start ls) :=
  decidableInRow cs start ls

end Label

namespace Tree

mutual

/-- The pieces that a text is made of, apart from what stands between them: the leaves of its tree
and the comments, from left to right. -/
def pieces : Tree → List Label
  | node l cs => if l.kind.isComment || cs.isEmpty then [l] else piecesOf cs

/-- The pieces of several trees, one after the other. -/
def piecesOf : List Tree → List Label
  | [] => []
  | t :: ts => pieces t ++ piecesOf ts

end

variable {t t' : Tree}

mutual

/-- The comments of a tree are those among its pieces. -/
lemma comments_eq_filter : ∀ t : Tree, t.comments = t.pieces.filter (·.kind.isComment)
  | node l cs => by
    have hcs := commentsOf_eq_filter cs
    rw [comments, pieces]
    cases hl : l.kind.isComment with
    | true => simp [hl]
    | false =>
      cases cs with
      | nil => simp [hl, commentsOf]
      | cons c cs => simpa using hcs

/-- The comments of several trees are those among their pieces. -/
lemma commentsOf_eq_filter :
    ∀ ts : List Tree, commentsOf ts = (piecesOf ts).filter (·.kind.isComment)
  | [] => by rw [commentsOf, piecesOf, List.filter_nil]
  | t :: ts => by
    rw [commentsOf, piecesOf, List.filter_append, comments_eq_filter t, commentsOf_eq_filter ts]

end

mutual

/-- A piece that covers some text and is no comment is a word of the tree. -/
lemma text_mem_tokens : ∀ {t : Tree} {l : Label}, l ∈ t.pieces → l.kind.isComment = false →
    l.covers = true → l.text ∈ t.tokens
  | node m cs, l, hl, hcomment, hcovers => by
    rw [pieces] at hl
    cases hm : m.kind.isComment with
    | true =>
      obtain rfl : l = m := by simpa [hm] using hl
      rw [hm] at hcomment
      cases hcomment
    | false =>
      rw [tokens_node hm]
      cases cs with
      | nil =>
        obtain rfl : l = m := by simpa [hm] using hl
        simp [hcovers]
      | cons c cs => exact text_mem_tokensOf (by simpa [hm] using hl) hcomment hcovers

/-- A piece of several trees that covers some text and is no comment is one of their words. -/
lemma text_mem_tokensOf : ∀ {ts : List Tree} {l : Label}, l ∈ piecesOf ts →
    l.kind.isComment = false → l.covers = true → l.text ∈ tokensOf ts
  | [], l, hl, _, _ => by
    rw [piecesOf] at hl
    cases hl
  | t :: ts, l, hl, hcomment, hcovers => by
    rw [piecesOf, List.mem_append] at hl
    rw [tokensOf, List.mem_append]
    rcases hl with hl | hl
    · exact .inl (text_mem_tokens hl hcomment hcovers)
    · exact .inr (text_mem_tokensOf hl hcomment hcovers)

end

mutual

/-- The pieces of a tree and of the renamed tree correspond. -/
lemma Renamed.pieces : ∀ {t t' : Tree}, Renamed ρ t t' →
    List.Forall₂ (Label.Renamed ρ true) t.pieces t'.pieces
  | node l cs, node l' cs', h => by
    rw [Renamed] at h
    obtain ⟨hl, hcs⟩ := h
    have hrow := hcs.piecesOf
    rw [Tree.pieces, Tree.pieces, hl.kind, hcs.isEmpty_eq]
    cases hk : l.kind.isComment with
    | true =>
      refine .cons ⟨hl.kind, hl.field, hl.named, hl.row, fun _ hplain => ?_, hl.comment⟩ .nil
      rw [hk] at hplain
      cases hplain
    | false =>
      cases hleaf : cs.isEmpty with
      | true =>
        rw [hleaf] at hl
        exact .cons hl .nil
      | false => exact hrow

/-- The pieces of several trees and of the renamed trees correspond. -/
lemma RenamedAll.piecesOf : ∀ {ts ts' : List Tree}, RenamedAll ρ ts ts' →
    List.Forall₂ (Label.Renamed ρ true) (piecesOf ts) (piecesOf ts')
  | [], [], _ => by
    rw [Tree.piecesOf]
    exact .nil
  | t :: ts, t' :: ts', h => by
    rw [RenamedAll] at h
    rw [Tree.piecesOf, Tree.piecesOf]
    exact List.rel_append h.1.pieces h.2.piecesOf

end

end Tree

/-! ### Piece by piece -/

namespace Label

variable {cs cs' : List Char} {l l' : Label} {ls ls' : List Label}

/-- The text of a piece is what stands in its range. -/
lemma ReadFrom.toList_text (h : l.ReadFrom cs) : l.text.toList = Text.slice cs l.range := by
  rw [h.2.2.2.2, String.toList_ofList]

/-- A piece that covers nothing has no text. -/
lemma ReadFrom.toList_text_eq_nil (h : l.ReadFrom cs) (hcovers : l.covers = false) :
    l.text.toList = [] := by
  have hle : l.range.stop - l.range.start = 0 := by
    have hnot : ¬ l.range.start < l.range.stop := by simpa [covers] using hcovers
    omega
  rw [h.toList_text, Text.slice, hle, Text.takeBytes_zero]

/-- The words of a piece leave a line as blank as their new spelling does. -/
def KeepsBlank (ρ : String → String) (l : Label) : Prop :=
  l.kind.isComment = false → l.covers = true → Text.BlankAlike l.text.toList (ρ l.text).toList

/-- One piece further, the line is as blank in the renamed text as in the text. -/
lemma Renamed.blankBehind_eq (h : l.Renamed ρ true l') (hread : l.ReadFrom cs)
    (hread' : l'.ReadFrom cs') (hblank : l.KeepsBlank ρ) (blank : Bool) :
    Text.blankBehind blank l'.text.toList = Text.blankBehind blank l.text.toList := by
  cases hk : l.kind.isComment with
  | true => rw [(h.comment hk).1]
  | false =>
    obtain ⟨hcovers, htext⟩ := h.word rfl hk
    cases hl : l.covers with
    | true =>
      rw [htext hl]
      exact hblank hk hl blank
    | false => rw [hread.toList_text_eq_nil hl, hread'.toList_text_eq_nil (hcovers.trans hl)]

/-- Whether a line is blank at an offset follows from whether it is at an earlier one, and from what
stands between the two. -/
lemma blankBehind_takeBytes {i j : Nat} (hi : Text.IsOffset cs i) (hij : i ≤ j) :
    Text.blankBehind true (Text.takeBytes j cs) =
      Text.blankBehind (Text.blankBehind true (Text.takeBytes i cs)) (Text.slice cs ⟨i, j⟩) := by
  rw [← Text.takeBytes_append_slice hi hij, Text.blankBehind_append]

/-- Where two texts have corresponding pieces with the same gaps, a piece stands behind blanks only
in both of them or in neither. -/
theorem InRow.startsLine_eq (h : List.Forall₂ (Renamed ρ true) ls ls') {i i' : Nat}
    (hi : Text.IsOffset cs i) (hi' : Text.IsOffset cs' i') (hrow : InRow cs i ls)
    (hrow' : InRow cs' i' ls') (hgaps : gaps cs' i' ls' = gaps cs i ls)
    (hblank : ∀ l ∈ ls, l.KeepsBlank ρ)
    (hstart : Text.blankBehind true (Text.takeBytes i' cs') =
      Text.blankBehind true (Text.takeBytes i cs)) :
    List.Forall₂ (fun l l' => l.Renamed ρ true l' ∧
      Suppression.startsLine cs' l'.range.start = Suppression.startsLine cs l.range.start)
      ls ls' := by
  induction h generalizing i i' with
  | nil => exact .nil
  | @cons l l' ls ls' hl _ ih =>
    obtain ⟨hstart_le, hle, hread, hrest⟩ := hrow
    obtain ⟨hstart_le', hle', hread', hrest'⟩ := hrow'
    obtain ⟨hgap, hgaps⟩ := List.cons.inj hgaps
    -- The gap before the piece is the same, so the line is as blank at the start of the piece.
    have hbefore : Text.blankBehind true (Text.takeBytes l'.range.start cs') =
        Text.blankBehind true (Text.takeBytes l.range.start cs) := by
      rw [blankBehind_takeBytes hi' hstart_le', blankBehind_takeBytes hi hstart_le, hstart, hgap]
    have hbehind : Text.blankBehind true (Text.takeBytes l'.range.stop cs') =
        Text.blankBehind true (Text.takeBytes l.range.stop cs) := by
      rw [blankBehind_takeBytes hread'.1 hle', blankBehind_takeBytes hread.1 hle, hbefore,
        ← hread'.toList_text, ← hread.toList_text]
      exact hl.blankBehind_eq hread hread' (hblank l List.mem_cons_self) _
    refine .cons ⟨hl, ?_⟩ (ih hread.2.1 hread'.2.1 hrest hrest' hgaps
      (fun m hm => hblank m (List.mem_cons_of_mem l hm)) hbehind)
    rw [Suppression.startsLine_eq, Suppression.startsLine_eq, hbefore]

end Label

/-! ### What is silenced -/

namespace Tree

variable {source source' : String} {t t' : Tree}

/-- The second text is the first one with its words renamed by `ρ`, and `t` and `t'` are the trees
of the two: the trees correspond, their words and comments stand one behind the other in the texts,
and what stands before, between and behind them is the same. -/
structure RenamedText (ρ : String → String) (source source' : String) (t t' : Tree) : Prop where
  tree : t.Renamed ρ t'
  row : Label.InRow source.toList 0 t.pieces
  row' : Label.InRow source'.toList 0 t'.pieces
  gaps : Label.gaps source'.toList 0 t'.pieces = Label.gaps source.toList 0 t.pieces

instance : Decidable (RenamedText ρ source source' t t') :=
  decidable_of_iff (t.Renamed ρ t' ∧ Label.InRow source.toList 0 t.pieces ∧
      Label.InRow source'.toList 0 t'.pieces ∧
      Label.gaps source'.toList 0 t'.pieces = Label.gaps source.toList 0 t.pieces)
    ⟨fun ⟨htree, hrow, hrow', hgaps⟩ => ⟨htree, hrow, hrow', hgaps⟩,
      fun h => ⟨h.tree, h.row, h.row', h.gaps⟩⟩

/-- Some comment asks to silence its line. -/
def HasIgnore (t : Tree) : Prop :=
  ∃ c ∈ t.comments, Directive.ofComment? c.text = some .ignore

instance (t : Tree) : Decidable t.HasIgnore :=
  inferInstanceAs (Decidable (∃ c ∈ t.comments, Directive.ofComment? c.text = some .ignore))

/-- What the comments among some pieces silence depends on their texts, on the rows where they end,
and on whether those that ask to silence a line are the first on theirs. -/
lemma suppression_congr {cs cs' : List Char} {ls ls' : List Label}
    (h : List.Forall₂ (fun l l' => l.Renamed ρ true l' ∧
      (l.kind.isComment = true → Directive.ofComment? l.text = some .ignore →
        Suppression.startsLine cs' l'.range.start = Suppression.startsLine cs l.range.start))
      ls ls') :
    ((ls'.filter (·.kind.isComment)).any fun c =>
        Directive.ofComment? c.text == some .ignoreFile) =
      ((ls.filter (·.kind.isComment)).any fun c =>
        Directive.ofComment? c.text == some .ignoreFile) ∧
    (ls'.filter (·.kind.isComment)).flatMap (Suppression.rowsOf cs') =
      (ls.filter (·.kind.isComment)).flatMap (Suppression.rowsOf cs) := by
  induction h with
  | nil => exact ⟨rfl, rfl⟩
  | @cons l l' ls ls' hl _ ih =>
    obtain ⟨hl, hstarts⟩ := hl
    rw [List.filter_cons, List.filter_cons, hl.kind]
    cases hk : l.kind.isComment with
    | false => exact ih
    | true =>
      obtain ⟨htext, hrow⟩ := hl.comment hk
      have hrows : Suppression.rowsOf cs' l' = Suppression.rowsOf cs l := by
        rw [Suppression.rowsOf, Suppression.rowsOf, htext, hrow]
        split
        · rename_i hignore
          rw [hstarts hk hignore]
        · rfl
      simp only [if_true, List.any_cons, List.flatMap_cons, htext, hrows, ih.1, ih.2, and_self]

/-- Comments silence in the renamed text what they silence in the text, unless one of them asks to
silence its line and a word leaves a line more or less blank than its new spelling. -/
theorem RenamedText.suppression_eq (h : RenamedText ρ source source' t t')
    (hblank : t.HasIgnore → ∀ w ∈ t.tokens, Text.BlankAlike w.toList (ρ w).toList) :
    Suppression.ofTree source' t' = Suppression.ofTree source t := by
  have hpieces := h.tree.pieces
  have hstarts : List.Forall₂ (fun l l' => l.Renamed ρ true l' ∧
      (l.kind.isComment = true → Directive.ofComment? l.text = some .ignore →
        Suppression.startsLine source'.toList l'.range.start =
          Suppression.startsLine source.toList l.range.start)) t.pieces t'.pieces := by
    by_cases hignore : t.HasIgnore
    · have hkeeps : ∀ l ∈ t.pieces, l.KeepsBlank ρ := fun l hl hk hcovers =>
        hblank hignore _ (text_mem_tokens hl hk hcovers)
      have hstart : Text.blankBehind true (Text.takeBytes 0 source'.toList) =
          Text.blankBehind true (Text.takeBytes 0 source.toList) := by
        rw [Text.takeBytes_zero, Text.takeBytes_zero]
      exact (Label.InRow.startsLine_eq hpieces (Text.isOffset_zero _) (Text.isOffset_zero _) h.row
        h.row' h.gaps hkeeps hstart).imp fun l l' hl => ⟨hl.1, fun _ _ => hl.2⟩
    · have hnone : ∀ l ∈ t.pieces, l.kind.isComment = true →
          Directive.ofComment? l.text ≠ some .ignore := by
        intro l hl hk hdirective
        refine hignore ⟨l, ?_, hdirective⟩
        rw [comments_eq_filter]
        exact List.mem_filter.mpr ⟨hl, hk⟩
      refine ((List.forall₂_and_left _ _).mpr ⟨hnone, hpieces⟩).imp ?_
      exact fun l l' hl => ⟨hl.2, fun hk hdirective => absurd hdirective (hl.1 hk)⟩
  rw [Suppression.ofTree, Suppression.ofTree, Suppression.mk.injEq, comments_eq_filter,
    comments_eq_filter]
  exact suppression_congr hstarts

end Tree
end LoopLint
