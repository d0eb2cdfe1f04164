import LoopLint.Command.Check
import Mathlib.Data.List.Nodup

/-!
# Sorting

The program sorts paths, diagnostics and failures by comparing them.  All these comparisons are
lawful: they are oriented and transitive, so a sorted list is in order whatever was sorted.  Where
no two items compare equal the order is strict, and then the sorted list does not depend on the
order in which the items came.  Items that compare equal stay in the order in which they came.  If
the comparison refines that of a key, then the items with one key stand together.

Paths compare equal exactly if they have the same components.  `Selection.sortPaths` keeps one of
each class of equal paths, so the paths to check are strictly increasing.
-/

namespace LoopLint

/-! ### Lawful comparisons -/

/-- Comparing what a function makes of two values. -/
def compareBy {α β : Type} (cmp : β → β → Ordering) (f : α → β) (a b : α) : Ordering :=
  cmp (f a) (f b)

instance {α β : Type} (cmp : β → β → Ordering) [Std.TransCmp cmp] (f : α → β) :
    Std.TransCmp (compareBy cmp f) where
  eq_swap {a b} := by
    unfold compareBy
    exact Std.OrientedCmp.eq_swap
  isLE_trans {a b c} hab hbc := by
    unfold compareBy at hab hbc ⊢
    exact Std.TransCmp.isLE_trans hab hbc

namespace Path

namespace Component

instance : Std.TransCmp Component.compare :=
  inferInstanceAs (Std.TransCmp (compareLex (compareOn rank) (compareOn spelling)))

/-- Only equal components compare equal: the rank tells the kinds apart, the spelling the names. -/
instance : Std.LawfulEqCmp Component.compare where
  eq_of_compare {a b} h := by
    rw [Component.compare, Ordering.then_eq_eq, Std.compare_eq_iff_eq, Std.compare_eq_iff_eq] at h
    obtain ⟨hrank, hspelling⟩ := h
    cases a <;> cases b <;> simp_all [rank, spelling]

end Component

instance : Std.TransCmp Path.compare :=
  inferInstanceAs (Std.TransCmp (compareBy (List.compareLex Component.compare) components))

/-- Paths compare equal exactly if they have the same components. -/
theorem compare_eq_eq_iff {p q : Path} : p.compare q = .eq ↔ p.components = q.components := by
  rw [Path.compare]
  exact Std.LawfulEqCmp.compare_eq_iff_eq

/-- Paths are the same if their components are. -/
lemma same_eq_true_iff {p q : Path} : p.same q = true ↔ p.components = q.components :=
  beq_iff_eq

/-- Paths are the same if neither comes before the other. -/
lemma same_eq_compare (p q : Path) : p.same q = (p.compare q == .eq) := by
  rw [Bool.eq_iff_iff, same_eq_true_iff, beq_iff_eq, compare_eq_eq_iff]

end Path

instance : Std.TransCmp TextRange.compare :=
  inferInstanceAs (Std.TransCmp (compareLex (compareOn TextRange.start) (compareOn TextRange.stop)))

instance : Std.TransCmp Diagnostic.compare :=
  inferInstanceAs (Std.TransCmp (compareLex (compareBy Path.compare Diagnostic.filename)
    (compareBy TextRange.compare Diagnostic.range)))

/-! ### Sorted lists -/

section Sorted

variable {α : Type} (cmp : α → α → Ordering) [Std.TransCmp cmp]

/-- Of any two items one does not come behind the other. -/
lemma isLE_or_isLE (a b : α) : ((cmp a b).isLE || (cmp b a).isLE) = true := by
  have hswap : cmp b a = (cmp a b).swap := Std.OrientedCmp.eq_swap
  rw [hswap]
  cases cmp a b <;> rfl

/-- A sorted list is in order. -/
lemma pairwise_isLE_mergeSort (l : List α) :
    (l.mergeSort fun a b => (cmp a b).isLE).Pairwise fun a b => (cmp a b).isLE :=
  List.pairwise_mergeSort (fun _ _ _ => Std.TransCmp.isLE_trans) (isLE_or_isLE cmp) l

/-- Sorting puts the first item behind the lesser ones and before all others; these stay as they are
sorted without it. -/
lemma mergeSort_cons_eq (a : α) (l : List α) :
    let sorted := l.mergeSort fun a b => (cmp a b).isLE
    let lesser := sorted.filter fun b => !(cmp a b).isLE
    let others := sorted.filter fun b => (cmp a b).isLE
    ((a :: l).mergeSort fun a b => (cmp a b).isLE) = lesser ++ a :: others ∧
      lesser ++ others = sorted := by
  obtain ⟨l₁, l₂, hcons, htail, hbefore⟩ := @List.mergeSort_cons _ (fun a b => (cmp a b).isLE)
    (fun _ _ _ => Std.TransCmp.isLE_trans) (isLE_or_isLE cmp) a l
  have hsorted := pairwise_isLE_mergeSort cmp (a :: l)
  rw [hcons, List.pairwise_append, List.pairwise_cons] at hsorted
  have hafter : ∀ b ∈ l₂, (cmp a b).isLE = true := hsorted.2.1.1
  have hfirst : (l₁ ++ l₂).filter (fun b => !(cmp a b).isLE) = l₁ := by
    rw [List.filter_append, List.filter_eq_self.mpr hbefore, List.filter_eq_nil_iff.mpr,
      List.append_nil]
    intro b hb
    rw [hafter b hb]
    exact Bool.false_ne_true
  have hlast : (l₁ ++ l₂).filter (fun b => (cmp a b).isLE) = l₂ := by
    rw [List.filter_append, List.filter_eq_self.mpr hafter, List.filter_eq_nil_iff.mpr,
      List.nil_append]
    intro b hb
    rw [Bool.not_eq_true, ← Bool.not_eq_true']
    exact hbefore b hb
  simp only
  rw [hcons, htail, hfirst, hlast]
  exact ⟨rfl, rfl⟩

/-- It is the same to take some items of a list before or after sorting it. -/
theorem filter_mergeSort (p : α → Bool) (l : List α) :
    (l.mergeSort fun a b => (cmp a b).isLE).filter p =
      (l.filter p).mergeSort fun a b => (cmp a b).isLE := by
  induction l with
  | nil => rw [List.mergeSort_nil, List.filter_nil, List.mergeSort_nil]
  | cons a l ih =>
    obtain ⟨hcons, hparts⟩ := mergeSort_cons_eq cmp a l
    rw [hcons, List.filter_append]
    by_cases ha : p a = true
    · rw [List.filter_cons_of_pos ha, List.filter_cons_of_pos ha,
        (mergeSort_cons_eq cmp a (l.filter p)).1, ← ih]
      simp only [List.filter_filter, Bool.and_comm]
    · rw [List.filter_cons_of_neg ha, List.filter_cons_of_neg ha, ← ih, ← List.filter_append,
        hparts]

/-- Items that compare equal to a given one stay in the order in which they came. -/
theorem filter_eq_mergeSort (a : α) (l : List α) :
    (l.mergeSort fun a b => (cmp a b).isLE).filter (fun b => cmp a b == .eq) =
      l.filter fun b => cmp a b == .eq := by
  rw [filter_mergeSort]
  refine List.mergeSort_of_pairwise (List.pairwise_of_forall_mem_list ?_)
  intro b hb c hc
  have hab : cmp a b = .eq := by simpa using (List.mem_filter.mp hb).2
  have hac : cmp a c = .eq := by simpa using (List.mem_filter.mp hc).2
  have hbc : cmp b c = .eq := by rw [← hac, Std.TransCmp.congr_left hab]
  rw [hbc]
  rfl

/-- Sorting makes a list strictly increasing if its items differ in the comparison. -/
theorem pairwise_lt_mergeSort {l : List α} (h : l.Pairwise fun a b => cmp a b ≠ .eq) :
    (l.mergeSort fun a b => (cmp a b).isLE).Pairwise fun a b => cmp a b = .lt := by
  have hsymm : ∀ {a b}, cmp a b ≠ .eq → cmp b a ≠ .eq := by
    intro a b hab hba
    have hswap : cmp a b = (cmp b a).swap := Std.OrientedCmp.eq_swap
    rw [hswap, hba] at hab
    exact hab rfl
  have hne := (List.Perm.pairwise_iff hsymm
    (List.mergeSort_perm l fun a b => (cmp a b).isLE)).mpr h
  refine List.Pairwise.imp ?_ ((pairwise_isLE_mergeSort cmp l).and hne)
  rintro a b ⟨hle, hne⟩
  cases hab : cmp a b with
  | lt => rfl
  | eq => exact absurd hab hne
  | gt => rw [hab] at hle; cases hle

/-- Strictly increasing lists with the same items are equal. -/
theorem eq_of_pairwise_lt {l₁ l₂ : List α} (h₁ : l₁.Pairwise fun a b => cmp a b = .lt)
    (h₂ : l₂.Pairwise fun a b => cmp a b = .lt) (hmem : ∀ a, a ∈ l₁ ↔ a ∈ l₂) : l₁ = l₂ := by
  have hirrefl : ∀ a, cmp a a ≠ .lt := by
    intro a ha
    have hself : cmp a a = .eq := Std.ReflCmp.compare_self
    rw [hself] at ha
    cases ha
  have hnodup : ∀ {l : List α}, l.Pairwise (fun a b => cmp a b = .lt) → l.Nodup := by
    intro l hl
    refine List.Pairwise.imp ?_ hl
    rintro a b hab rfl
    exact hirrefl a hab
  have hperm : l₁.Perm l₂ := (List.perm_ext_iff_of_nodup (hnodup h₁) (hnodup h₂)).mpr hmem
  refine List.Perm.eq_of_pairwise (fun a b _ _ hab hba => ?_) h₁ h₂ hperm
  exact absurd (Std.TransCmp.lt_trans hab hba) (hirrefl a)

end Sorted

/-! ### Keys

A list may be in order by a key of its items.  Then the items with one key stand together.
-/

section Keys

variable {α β : Type} (cmp : β → β → Ordering) [Std.TransCmp cmp] (f : α → β)

/-- If no item has a lesser key, then those with the key come first. -/
lemma filter_key_isPrefix {k : β} {l : List α}
    (hsorted : l.Pairwise fun a b => (cmp (f a) (f b)).isLE)
    (hk : ∀ a ∈ l, (cmp k (f a)).isLE) : l.filter (fun a => cmp k (f a) == .eq) <+: l := by
  induction l with
  | nil => exact List.prefix_rfl
  | cons a l ih =>
    rw [List.pairwise_cons] at hsorted
    cases ha : cmp k (f a) with
    | eq =>
      rw [List.filter_cons_of_pos (by simp [ha]), List.prefix_cons_inj]
      exact ih hsorted.2 fun b hb => hk b (List.mem_cons_of_mem a hb)
    | lt =>
      have hnone : (a :: l).filter (fun a => cmp k (f a) == .eq) = [] := by
        refine List.filter_eq_nil_iff.mpr fun b hb => ?_
        have hlt : cmp k (f b) = .lt := by
          rcases List.mem_cons.mp hb with rfl | hb
          · exact ha
          · exact Std.TransCmp.lt_of_lt_of_isLE ha (hsorted.1 b hb)
        simp [hlt]
      rw [hnone]
      exact List.nil_prefix
    | gt =>
      have hle := hk a List.mem_cons_self
      rw [ha] at hle
      cases hle

/-- The items with one key stand together. -/
theorem filter_key_isInfix (k : β) {l : List α}
    (hsorted : l.Pairwise fun a b => (cmp (f a) (f b)).isLE) :
    l.filter (fun a => cmp k (f a) == .eq) <:+: l := by
  induction l with
  | nil => exact List.infix_rfl
  | cons a l ih =>
    by_cases hle : (cmp k (f a)).isLE = true
    · refine (filter_key_isPrefix cmp f hsorted fun b hb => ?_).isInfix
      rcases List.mem_cons.mp hb with rfl | hb
      · exact hle
      · exact Std.TransCmp.isLE_trans hle (List.rel_of_pairwise_cons hsorted hb)
    · have hne : cmp k (f a) ≠ .eq := by
        intro heq
        exact hle (by rw [heq]; rfl)
      rw [List.filter_cons_of_neg (by simpa using hne)]
      exact List.infix_cons (ih hsorted.of_cons)

end Keys

/-! ### The paths to check -/

namespace Selection

/-- Dropping repeats keeps the order of the others. -/
lemma dropRepeatsAfter_sublist (p : Path) (ps : List Path) :
    (dropRepeatsAfter p ps).Sublist ps := by
  induction ps generalizing p with
  | nil => exact List.Sublist.slnil
  | cons q qs ih =>
    rw [dropRepeatsAfter]
    split
    · exact (ih p).cons q
    · exact (ih q).cons_cons q

/-- Behind a path, a list in order keeps only greater paths. -/
lemma pairwise_lt_dropRepeatsAfter (p : Path) (ps : List Path)
    (h : (p :: ps).Pairwise fun p q => (p.compare q).isLE) :
    (p :: dropRepeatsAfter p ps).Pairwise fun p q => p.compare q = .lt := by
  induction ps generalizing p with
  | nil => exact List.pairwise_singleton _ p
  | cons q qs ih =>
    rw [dropRepeatsAfter]
    have hpq : (p.compare q).isLE := List.rel_of_pairwise_cons h List.mem_cons_self
    have hq : (q :: qs).Pairwise fun p q => (p.compare q).isLE := h.of_cons
    split
    · next hsame =>
      refine ih p (List.pairwise_cons.mpr ⟨fun r hr => ?_, hq.of_cons⟩)
      exact List.rel_of_pairwise_cons h (List.mem_cons_of_mem q hr)
    · next hsame =>
      have hlt : p.compare q = .lt := by
        cases hcompare : p.compare q with
        | lt => rfl
        | eq => exact absurd (Path.same_eq_true_iff.mpr (Path.compare_eq_eq_iff.mp hcompare)) hsame
        | gt => rw [hcompare] at hpq; cases hpq
      have hrest := ih q hq
      refine List.pairwise_cons.mpr ⟨fun r hr => ?_, hrest⟩
      rcases List.mem_cons.mp hr with rfl | hr
      · exact hlt
      · exact Std.TransCmp.lt_trans hlt (List.rel_of_pairwise_cons hrest hr)

/-- The paths to check are strictly increasing. -/
theorem pairwise_lt_sortPaths (ps : List Path) :
    (sortPaths ps).Pairwise fun p q => p.compare q = .lt := by
  have hsorted := pairwise_isLE_mergeSort Path.compare ps
  unfold sortPaths
  cases hps : ps.mergeSort fun p q => (p.compare q).isLE with
  | nil => exact List.Pairwise.nil
  | cons p ps =>
    rw [hps] at hsorted
    exact pairwise_lt_dropRepeatsAfter p ps hsorted

/-- Sorting adds no paths. -/
lemma mem_of_mem_sortPaths {p : Path} {ps : List Path} (h : p ∈ sortPaths ps) : p ∈ ps := by
  have hsub : ∀ qs : List Path, (dropRepeats qs).Sublist qs := by
    intro qs
    cases qs with
    | nil => exact List.Sublist.slnil
    | cons q qs => exact (dropRepeatsAfter_sublist q qs).cons_cons q
  exact (List.mergeSort_perm ps _).mem_iff.mp ((hsub _).subset h)

/-- Of the paths from `q` on, one is kept for each. -/
lemma exists_mem_dropRepeatsAfter {p : Path} (q : Path) (qs : List Path) (hp : p ∈ q :: qs) :
    ∃ r ∈ q :: dropRepeatsAfter q qs, r.components = p.components := by
  induction qs generalizing q with
  | nil => exact ⟨q, List.mem_cons_self, by rw [List.mem_singleton.mp hp]⟩
  | cons r rs ih =>
    rw [dropRepeatsAfter]
    rcases List.mem_cons.mp hp with rfl | hp
    · exact ⟨p, List.mem_cons_self, rfl⟩
    · split
      · next hsame =>
        rcases List.mem_cons.mp hp with rfl | hp
        · exact ⟨q, List.mem_cons_self, Path.same_eq_true_iff.mp hsame⟩
        · exact ih q (List.mem_cons_of_mem q hp)
      · obtain ⟨s, hs, heq⟩ := ih r hp
        exact ⟨s, List.mem_cons_of_mem q hs, heq⟩

/-- No file is lost: for every path one with the same components is kept. -/
lemma exists_mem_sortPaths {p : Path} {ps : List Path} (h : p ∈ ps) :
    ∃ q ∈ sortPaths ps, q.components = p.components := by
  have hp := (List.mergeSort_perm ps fun p q => (p.compare q).isLE).mem_iff.mpr h
  unfold sortPaths
  cases hps : ps.mergeSort fun p q => (p.compare q).isLE with
  | nil => rw [hps] at hp; cases hp
  | cons q qs =>
    rw [hps] at hp
    exact exists_mem_dropRepeatsAfter q qs hp

/-- Where equal paths are spelled alike, the paths to check are just the given ones. -/
lemma mem_sortPaths_iff {ps : List Path}
    (hspelled : ∀ p ∈ ps, ∀ q ∈ ps, p.components = q.components → p = q) {p : Path} :
    p ∈ sortPaths ps ↔ p ∈ ps := by
  refine ⟨mem_of_mem_sortPaths, fun hp => ?_⟩
  obtain ⟨q, hq, heq⟩ := exists_mem_sortPaths hp
  exact hspelled q (mem_of_mem_sortPaths hq) p hp heq ▸ hq

/-- Where equal paths are spelled alike, the order and the repetitions of the given paths do not
matter. -/
theorem sortPaths_congr {ps qs : List Path}
    (hspelled : ∀ p ∈ ps, ∀ q ∈ ps, p.components = q.components → p = q)
    (hmem : ∀ p, p ∈ ps ↔ p ∈ qs) : sortPaths ps = sortPaths qs := by
  have hspelled' : ∀ p ∈ qs, ∀ q ∈ qs, p.components = q.components → p = q :=
    fun p hp q hq => hspelled p ((hmem p).mpr hp) q ((hmem q).mpr hq)
  refine eq_of_pairwise_lt Path.compare (pairwise_lt_sortPaths ps) (pairwise_lt_sortPaths qs) ?_
  intro p
  rw [mem_sortPaths_iff hspelled, mem_sortPaths_iff hspelled', hmem]

end Selection
end LoopLint
