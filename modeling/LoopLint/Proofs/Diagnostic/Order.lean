import LoopLint.Proofs.Sorting

/-!
# The order of diagnostics

Diagnostics are compared by the components of their files, then by their ranges.  Two notions of
being equal are in use: `Diagnostic.same` looks at everything, `Diagnostic.compare` at file and
range only.  The first is finer than the second, so the comparison cannot tell apart two diagnostics
that are the same, on either side.

Sorting by the comparison is sorting by file first: after it the diagnostics of a file stand
together, whatever the spellings of its path, and among them the ranges are in order.
-/

namespace LoopLint

namespace TextRange

/-- Only equal ranges have the same place in the order. -/
lemma compare_eq_eq_iff {r s : TextRange} : r.compare s = .eq ↔ r = s := by
  rw [TextRange.compare, Ordering.then_eq_eq, Std.compare_eq_iff_eq, Std.compare_eq_iff_eq]
  constructor
  · rintro ⟨hstart, hstop⟩
    cases r
    cases s
    simp_all
  · rintro rfl
    exact ⟨rfl, rfl⟩

/-- A range comes no later than another one if it starts before it, or starts with it and ends no
later. -/
lemma isLE_compare_iff {r s : TextRange} :
    (r.compare s).isLE ↔ r.start < s.start ∨ r.start = s.start ∧ r.stop ≤ s.stop := by
  rw [TextRange.compare]
  cases hstart : compare r.start s.start with
  | lt => simp [Nat.compare_eq_lt.mp hstart]
  | eq => simp [Nat.compare_eq_eq.mp hstart, Nat.isLE_compare]
  | gt =>
    have hlt := Nat.compare_eq_gt.mp hstart
    simp only [Ordering.then, Ordering.isLE_gt, Bool.false_eq_true, false_iff]
    omega

end TextRange

namespace Diagnostic

variable {a b : Diagnostic}

/-- Diagnostics compare equal exactly if they have the same file and the same range. -/
lemma compare_eq_eq_iff :
    a.compare b = .eq ↔ a.filename.components = b.filename.components ∧ a.range = b.range := by
  rw [Diagnostic.compare, Ordering.then_eq_eq, Path.compare_eq_eq_iff, TextRange.compare_eq_eq_iff]

/-- Diagnostics that are the same compare equal. -/
lemma compare_eq_of_same (h : a.same b = true) : a.compare b = .eq := by
  simp only [same, Bool.and_eq_true, beq_iff_eq] at h
  exact compare_eq_eq_iff.mpr ⟨Path.same_eq_true_iff.mp h.1.1.2, h.1.2⟩

/-- The comparison puts files first. -/
lemma isLE_filename_of_isLE_compare (h : (a.compare b).isLE) :
    (a.filename.compare b.filename).isLE := by
  rw [Diagnostic.compare] at h
  cases hfile : a.filename.compare b.filename with
  | lt => rfl
  | eq => rfl
  | gt => rw [hfile] at h; exact h

/-- In one file the ranges decide. -/
lemma isLE_range_of_isLE_compare (h : (a.compare b).isLE)
    (hfile : a.filename.components = b.filename.components) : (a.range.compare b.range).isLE := by
  rwa [Diagnostic.compare, Path.compare_eq_eq_iff.mpr hfile] at h

/-- Sorted diagnostics are in order. -/
lemma pairwise_sort (ds : List Diagnostic) :
    (sort ds).Pairwise fun a b => (a.compare b).isLE :=
  pairwise_isLE_mergeSort Diagnostic.compare ds

/-- After sorting, the diagnostics of a file stand together. -/
lemma filter_file_sort_isInfix (ds : List Diagnostic) (file : Path) :
    (sort ds).filter (fun d => file.same d.filename) <:+: sort ds := by
  simp only [Path.same_eq_compare]
  exact filter_key_isInfix Path.compare Diagnostic.filename file
    ((pairwise_sort ds).imp isLE_filename_of_isLE_compare)

/-- After sorting, the ranges in a file are in order. -/
lemma pairwise_filter_file_sort (ds : List Diagnostic) (file : Path) :
    ((sort ds).filter fun d => file.same d.filename).Pairwise
      fun a b => (a.range.compare b.range).isLE := by
  refine ((pairwise_sort ds).filter _).imp_of_mem ?_
  intro a b ha hb hle
  have hfile : a.filename.components = b.filename.components := by
    rw [← Path.same_eq_true_iff.mp (List.mem_filter.mp ha).2,
      Path.same_eq_true_iff.mp (List.mem_filter.mp hb).2]
  exact isLE_range_of_isLE_compare hle hfile

/-- What makes a comparison a key to sort diagnostics by, given when two of them are the same and
how a list of them is sorted. -/
structure SortingKey (cmp : Diagnostic → Diagnostic → Ordering)
    (same : Diagnostic → Diagnostic → Bool) (sort : List Diagnostic → List Diagnostic) :
    Prop where
  self : ∀ a, cmp a a = .eq
  swap : ∀ a b, cmp b a = (cmp a b).swap
  total : ∀ a b, (cmp a b).isLE ∨ (cmp b a).isLE
  trans : ∀ a b c, (cmp a b).isLE → (cmp b c).isLE → (cmp a c).isLE
  /-- Each of the three results is transitive on its own. -/
  trans_of_eq : ∀ o a b c, cmp a b = o → cmp b c = o → cmp a c = o
  eq_iff : ∀ a b,
    cmp a b = .eq ↔ a.filename.components = b.filename.components ∧ a.range = b.range
  eq_of_same : ∀ a b, same a b = true → cmp a b = .eq
  /-- A diagnostic may be replaced by one that is the same, on either side. -/
  congr : ∀ a b c, same a b = true → cmp a c = cmp b c ∧ cmp c a = cmp c b
  perm : ∀ ds, (sort ds).Perm ds
  /-- Diagnostics that compare equal stay in the order in which they came. -/
  stable : ∀ ds a, (sort ds).filter (fun b => cmp a b == .eq) = ds.filter fun b => cmp a b == .eq
  /-- The diagnostics of a file stand together. -/
  together : ∀ ds file, (sort ds).filter (fun d => Path.same file d.filename) <:+: sort ds
  /-- The diagnostics of a file stand in the order of their starts, then of their ends. -/
  inOrder : ∀ ds file, ((sort ds).filter fun d => Path.same file d.filename).Pairwise fun a b =>
    a.range.start < b.range.start ∨ a.range.start = b.range.start ∧ a.range.stop ≤ b.range.stop

/-- **The order of diagnostics is a key to sort by.** -/
theorem compare_sortingKey : SortingKey Diagnostic.compare Diagnostic.same Diagnostic.sort where
  self := by
    intro a
    exact compare_eq_eq_iff.mpr ⟨rfl, rfl⟩
  swap := by
    intro a b
    exact Std.OrientedCmp.eq_swap
  total := by
    intro a b
    simpa using isLE_or_isLE Diagnostic.compare a b
  trans := by
    intro a b c hab hbc
    exact Std.TransCmp.isLE_trans hab hbc
  trans_of_eq := by
    rintro o a b c rfl hbc
    cases hab : a.compare b with
    | lt => exact Std.TransCmp.lt_trans hab (hbc.trans hab)
    | eq => exact Std.TransCmp.eq_trans hab (hbc.trans hab)
    | gt => exact Std.TransCmp.gt_trans hab (hbc.trans hab)
  eq_iff := by
    intro a b
    exact compare_eq_eq_iff
  eq_of_same := by
    intro a b hsame
    exact compare_eq_of_same hsame
  congr := by
    intro a b c hsame
    have heq := compare_eq_of_same hsame
    exact ⟨Std.TransCmp.congr_left heq, Std.TransCmp.congr_right heq⟩
  perm := by
    intro ds
    exact List.mergeSort_perm ds _
  stable := by
    intro ds a
    exact filter_eq_mergeSort Diagnostic.compare a ds
  together := filter_file_sort_isInfix
  inOrder := by
    intro ds file
    exact (pairwise_filter_file_sort ds file).imp TextRange.isLE_compare_iff.mp

end Diagnostic
end LoopLint
