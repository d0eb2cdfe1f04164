import LoopLint.Proofs.Loop.Overlooked
import LoopLint.Proofs.Suppression.Coverage

/-!
# Suppression filters findings

Comments are collected from the whole tree before the walk starts, and the walk asks for a silenced
row only when a loop is closed and its verdict is known.  So directives take findings away and do
nothing else: the check reports what a walk without suppression finds, in the same order, less the
loops that start on a silenced row (`checkNode_eq_filter`).  It does not matter whether the walk
comes to the comment, nor what the row of any other loop is.
-/

namespace LoopLint

variable {source : String}

/-- Nothing is silenced. -/
def Suppression.nothing : Suppression := ⟨false, []⟩

/-- Where nothing is silenced, no row is. -/
@[simp] lemma Suppression.covers_nothing (row : Nat) : nothing.covers row = false := rfl

/-- Suppression takes the loops on silenced rows out of the findings. -/
lemma Node.findings_eq_filter (s : Suppression) (n : Node) :
    n.findings s =
      (n.findings .nothing).filter (fun l => !s.covers l.node.label.start.row) := by
  rw [findings, findings, List.filter_filter]
  refine List.filter_congr fun l _ => ?_
  rw [CountedLoop.isReportable, CountedLoop.isReportable, Suppression.covers_nothing,
    Bool.not_false, Bool.and_true, Bool.and_comm]

/-- The file is skipped as a whole if a comment in the tree says so. -/
lemma Suppression.wholeFile_eq_true_iff_hasComment {root : Node} :
    (ofTree source root.focus).wholeFile = true ↔
      ∃ c, root.HasComment c ∧ Directive.ofComment? c.text = some .ignoreFile := by
  rw [wholeFile_eq_true_iff]
  constructor
  · rintro ⟨x, hx, hd⟩
    obtain ⟨c, hc, rfl⟩ := Node.mem_comments_iff.mp hx
    exact ⟨c, hc, hd⟩
  · rintro ⟨c, hc, hd⟩
    exact ⟨c.label, Node.mem_comments_iff.mpr ⟨c, hc, rfl⟩, hd⟩

open scoped Classical in
/-- What the check reports where the file is not skipped: the findings of a walk without suppression
whose rows are not silenced. -/
lemma Node.findings_ofTree (source : String) (root : Node) :
    root.findings (Suppression.ofTree source root.focus) =
      (root.findings .nothing).filter fun l =>
        ¬ root.Silences source l.node.label.start.row := by
  rw [findings_eq_filter]
  refine List.filter_congr fun l _ => ?_
  rw [Bool.eq_iff_iff, Bool.not_eq_true', decide_eq_true_iff, ← Suppression.covers_eq_true_iff,
    Bool.not_eq_true]

open scoped Classical in
/-- Suppression is a filter.  The check reports nothing if a comment in the tree says
`forof-ignore-file`; otherwise it does what a walk without suppression does, less the findings on
rows that a directive silences.  So a loop is reported if and only if that walk finds it and its own
row is not silenced, whatever is silenced elsewhere.

The comments that count are all those in the tree, visited or not. -/
theorem checkNode_eq_filter (source : String) (root : Node) :
    ((checkNode source root).value =
      if ∃ c, root.HasComment c ∧ Directive.ofComment? c.text = some .ignoreFile then .ok []
      else (Walk.start.run .nothing root.events).map fun w =>
        (w.found.filter fun l => ¬ root.Silences source l.node.label.start.row).map
          CountedLoop.diagnostic) ∧
      (∀ l : CountedLoop, l.Reported source root ↔
        (∀ c, root.HasComment c → Directive.ofComment? c.text ≠ some .ignoreFile) ∧
          (∃ w, Walk.start.run .nothing root.events = .ok w ∧ l ∈ w.found) ∧
          ¬ root.Silences source l.node.label.start.row) ∧
      ((∀ c ∈ root.preorder, c.kind.isComment = true → c.children = []) →
        ∀ c, root.HasComment c ↔ c ∈ root.preorder ∧ c.kind.isComment = true) := by
  refine ⟨?_, fun l => ?_, fun h c => Node.hasComment_iff_mem_preorder h⟩
  · by_cases hfile : (Suppression.ofTree source root.focus).wholeFile = true
    · rw [checkNode_value_of_wholeFile hfile,
        if_pos (Suppression.wholeFile_eq_true_iff_hasComment.mp hfile)]
    · rw [if_neg fun h => hfile (Suppression.wholeFile_eq_true_iff_hasComment.mpr h),
        checkNode_value (by simpa using hfile), Walk.run_events, Walk.after, Node.findings_ofTree]
      split <;> rfl
  · rw [CountedLoop.reported_iff_mem_findings, Node.findings_ofTree, List.mem_filter,
      decide_eq_true_iff, ← Bool.not_eq_true, Suppression.wholeFile_eq_true_iff_hasComment,
      Walk.exists_run_start_iff, and_assoc]
    simp only [not_exists, not_and, ne_eq]

end LoopLint
