import LoopLint.Proofs.Path.Canonical
import LoopLint.Proofs.Sorting
import Mathlib.Data.List.Forall2

/-!
# The selection of files

The files to check are the found paths in order, without those that repeat the one before them.
Repetitions are only dropped where they are next to each other.  This is enough because the order
puts equal paths next to each other, and because sorting is stable: the first of a row of equal
paths is the one that was found first, so its spelling is the one that is kept.

`Selection.KeepsEach` says what a selection should be, and there is only one list like that
(`KeepsEach.unique`).  Which spelling comes first depends on the order of the found paths; which
files are selected, and in which order, does not.
-/

namespace LoopLint.Selection

/-! ### The first of its equals -/

/-- In a list in order, a path that is kept is the first of its equals. -/
lemma find?_same_of_mem_dropRepeatsAfter {q : Path} (p : Path) (ps : List Path)
    (hsorted : (p :: ps).Pairwise fun p q => (p.compare q).isLE)
    (hq : q ∈ p :: dropRepeatsAfter p ps) : (p :: ps).find? (q.same ·) = some q := by
  induction ps generalizing p with
  | nil =>
    obtain rfl := List.mem_singleton.mp hq
    exact List.find?_cons_of_pos (Path.same_self q)
  | cons r rs ih =>
    have hlt := pairwise_lt_dropRepeatsAfter p (r :: rs) hsorted
    rw [dropRepeatsAfter] at hq hlt
    split at hq
    · next hpr =>
      have hfirst := ih p (hsorted.sublist ((List.sublist_cons_self r rs).cons_cons p)) hq
      by_cases hqp : q.same p = true
      · rw [List.find?_cons_of_pos hqp] at hfirst ⊢
        exact hfirst
      · have hqr : ¬q.same r = true := by
          rw [Path.same_eq_true_iff, ← Path.same_eq_true_iff.mp hpr, ← Path.same_eq_true_iff]
          exact hqp
        rw [List.find?_cons_of_neg hqp] at hfirst ⊢
        rw [List.find?_cons_of_neg hqr]
        exact hfirst
    · next hpr =>
      rw [if_neg hpr] at hlt
      rcases List.mem_cons.mp hq with rfl | hq
      · exact List.find?_cons_of_pos (Path.same_self q)
      · have hqp : ¬q.same p = true := by
          intro hsame
          have hless : p.compare q = .lt := List.rel_of_pairwise_cons hlt hq
          rw [Path.compare_eq_eq_iff.mpr (Path.same_eq_true_iff.mp hsame).symm] at hless
          cases hless
        rw [List.find?_cons_of_neg hqp]
        exact ih r hsorted.of_cons hq

/-- Sorting leaves the first of its equals the first. -/
lemma find?_same_mergeSort (q : Path) (ps : List Path) :
    (ps.mergeSort fun p q => (p.compare q).isLE).find? (q.same ·) = ps.find? (q.same ·) := by
  simp only [← List.head?_filter, Path.same_eq_compare]
  rw [filter_eq_mergeSort Path.compare q ps]

/-- Each of the paths to check is the first of its equals among the given ones. -/
theorem find?_same_of_mem_sortPaths {q : Path} {ps : List Path} (hq : q ∈ sortPaths ps) :
    ps.find? (q.same ·) = some q := by
  have hsorted := pairwise_isLE_mergeSort Path.compare ps
  rw [← find?_same_mergeSort]
  unfold sortPaths at hq
  cases hps : ps.mergeSort fun p q => (p.compare q).isLE with
  | nil => rw [hps] at hq; cases hq
  | cons p ps =>
    rw [hps] at hq hsorted
    exact find?_same_of_mem_dropRepeatsAfter p ps hsorted hq

/-! ### Each path once -/

/-- No two paths of a strictly increasing list are equal to the same path. -/
lemma countP_same_eq_one {ps : List Path} (hlt : ps.Pairwise fun p q => p.compare q = .lt)
    {p q : Path} (hq : q ∈ ps) (hsame : p.same q = true) : ps.countP (p.same ·) = 1 := by
  rw [List.countP_eq_length_filter]
  have hmem : q ∈ ps.filter (p.same ·) := List.mem_filter.mpr ⟨hq, hsame⟩
  have hequal : ∀ r ∈ ps.filter (p.same ·), p.components = r.components := by
    intro r hr
    exact Path.same_eq_true_iff.mp (List.mem_filter.mp hr).2
  have hless := hlt.filter (p.same ·)
  cases hfilter : ps.filter (p.same ·) with
  | nil => rw [hfilter] at hmem; cases hmem
  | cons x xs =>
    rw [hfilter] at hequal hless
    cases xs with
    | nil => rfl
    | cons y ys =>
      have hxy : x.compare y = .lt := List.rel_of_pairwise_cons hless List.mem_cons_self
      have heq : x.compare y = .eq := by
        rw [Path.compare_eq_eq_iff, ← hequal x List.mem_cons_self,
          hequal y (List.mem_cons_of_mem x List.mem_cons_self)]
      rw [heq] at hxy
      cases hxy

/-- The paths of `found`, in order and each of them once: `kept` is strictly increasing, has one
path for each found one, and only has paths that were found before all their equals. -/
structure KeepsEach (found kept : List Path) : Prop where
  increasing : kept.Pairwise fun p q => p.compare q = .lt
  once : ∀ p ∈ found, kept.countP (p.same ·) = 1
  first : ∀ q ∈ kept, found.find? (q.same ·) = some q

/-- Sorting keeps one of each path, the first. -/
lemma keepsEach_sortPaths (ps : List Path) : KeepsEach ps (sortPaths ps) where
  increasing := pairwise_lt_sortPaths ps
  once := by
    intro p hp
    obtain ⟨q, hq, heq⟩ := exists_mem_sortPaths hp
    exact countP_same_eq_one (pairwise_lt_sortPaths ps) hq (Path.same_eq_true_iff.mpr heq.symm)
  first := by
    intro q hq
    exact find?_same_of_mem_sortPaths hq

/-- What is kept is determined by what is found. -/
lemma KeepsEach.mem_of_mem {found kept kept' : List Path} (h : KeepsEach found kept)
    (h' : KeepsEach found kept') {q : Path} (hq : q ∈ kept) : q ∈ kept' := by
  have hfirst := h.first q hq
  have hcount := h'.once q (List.mem_of_find?_eq_some hfirst)
  obtain ⟨q', hq', hsame⟩ := List.countP_pos_iff.mp (Nat.lt_of_lt_of_eq Nat.one_pos hcount.symm)
  have hfirst' := h'.first q' hq'
  -- Both are the first of the same equals.
  have hequals : (fun r => q'.same r) = fun r => q.same r := by
    funext r
    rw [Path.same, Path.same, Path.same_eq_true_iff.mp hsame]
  rw [hequals, hfirst] at hfirst'
  rw [Option.some.inj hfirst']
  exact hq'

/-- There is only one such list. -/
theorem KeepsEach.unique {found kept kept' : List Path} (h : KeepsEach found kept)
    (h' : KeepsEach found kept') : kept = kept' := by
  refine eq_of_pairwise_lt Path.compare h.increasing h'.increasing fun q => ?_
  exact ⟨h.mem_of_mem h', h'.mem_of_mem h⟩

/-! ### The order of the found paths -/

/-- Sorting keeps the components of all paths. -/
lemma mem_map_components_sortPaths {ps : List Path} {cs : List Path.Component} :
    cs ∈ (sortPaths ps).map Path.components ↔ ∃ p ∈ ps, p.components = cs := by
  rw [List.mem_map]
  constructor
  · rintro ⟨p, hp, hcs⟩
    exact ⟨p, mem_of_mem_sortPaths hp, hcs⟩
  · rintro ⟨p, hp, hcs⟩
    obtain ⟨q, hq, heq⟩ := exists_mem_sortPaths hp
    exact ⟨q, hq, heq.trans hcs⟩

/-- The files to check, and their order, depend only on which files there are. -/
theorem forall₂_same_sortPaths {ps qs : List Path}
    (h : ∀ cs, (∃ p ∈ ps, p.components = cs) ↔ ∃ q ∈ qs, q.components = cs) :
    List.Forall₂ (fun p q => p.same q = true) (sortPaths ps) (sortPaths qs) := by
  have hincreasing : ∀ l : List Path, ((sortPaths l).map Path.components).Pairwise
      fun cs ds => List.compareLex Path.Component.compare cs ds = .lt := by
    intro l
    rw [List.pairwise_map]
    exact pairwise_lt_sortPaths l
  have hmap : (sortPaths ps).map Path.components = (sortPaths qs).map Path.components := by
    refine eq_of_pairwise_lt (List.compareLex Path.Component.compare) (hincreasing ps)
      (hincreasing qs) fun cs => ?_
    rw [mem_map_components_sortPaths, mem_map_components_sortPaths, h]
  rw [← List.forall₂_eq_eq_eq, List.forall₂_map_left_iff, List.forall₂_map_right_iff] at hmap
  exact hmap.imp fun p q heq => Path.same_eq_true_iff.mpr heq

/-! ### Selecting -/

/-- If some paths are asked for, the found ones are sorted and selected. -/
lemma value_select {asked : List Path} (hasked : asked ≠ []) (found : List Path) :
    (select asked found).value = .ok (sortPaths found) := by
  rw [select, if_neg (by simpa using hasked)]
  rfl

/-- **A selection neither loses nor repeats a file.**  It fails exactly if no path was asked for.
Otherwise it keeps each of the found paths once, in order and spelled as it was found first, and
this determines it; if the paths are found in another order, then the selection has the same files
in the same places. -/
theorem select_keeps_each (asked found : List Path) :
    ((∃ c, (select asked found).value = .error c) ↔ asked = []) ∧
      (asked ≠ [] → ∃ kept, (select asked found).value = .ok kept ∧ KeepsEach found kept ∧
        (∀ kept', KeepsEach found kept' → kept' = kept) ∧
        ∀ found', found.Perm found' → ∃ kept', (select asked found').value = .ok kept' ∧
          kept.length = kept'.length ∧ List.Forall₂ (fun p q => p.same q = true) kept kept') := by
  constructor
  · constructor
    · rintro ⟨c, hc⟩
      by_contra hasked
      rw [value_select hasked] at hc
      cases hc
    · rintro rfl
      exact ⟨_, rfl⟩
  · intro hasked
    refine ⟨sortPaths found, value_select hasked found, keepsEach_sortPaths found, ?_, ?_⟩
    · intro kept' hkept'
      exact hkept'.unique (keepsEach_sortPaths found)
    · intro found' hperm
      have hsame : List.Forall₂ (fun p q => p.same q = true) (sortPaths found)
          (sortPaths found') := by
        apply forall₂_same_sortPaths
        intro cs
        simp only [hperm.mem_iff]
      exact ⟨sortPaths found', value_select hasked found', hsame.length_eq, hsame⟩

/-- Three files that were found under six spellings. -/
def spellings : List Path :=
  [⟨"b/./x.js"⟩, ⟨"./a.js"⟩, ⟨"b//x.js/"⟩, ⟨"/a.js"⟩, ⟨"././a.js"⟩, ⟨"b/x.js"⟩]

/-- Of the sample, the first spelling of each path is kept. -/
lemma keepsEach_spellings :
    KeepsEach spellings [⟨"/a.js"⟩, ⟨"./a.js"⟩, ⟨"b/./x.js"⟩] where
  increasing := by decide +kernel
  once := by decide +kernel
  first := by decide +kernel

/-- Each of the three files is selected once, under the spelling that came first. -/
theorem select_keeps_each_spellings :
    [(⟨"."⟩ : Path)] ≠ [] ∧ (select [⟨"."⟩] spellings).value =
      .ok [⟨"/a.js"⟩, ⟨"./a.js"⟩, ⟨"b/./x.js"⟩] := by
  have hasked : [(⟨"."⟩ : Path)] ≠ [] := List.cons_ne_nil _ _
  obtain ⟨kept, hkept, -, hunique, -⟩ := (select_keeps_each [⟨"."⟩] spellings).2 hasked
  refine ⟨hasked, ?_⟩
  rw [hkept, hunique _ keepsEach_spellings]

end LoopLint.Selection
