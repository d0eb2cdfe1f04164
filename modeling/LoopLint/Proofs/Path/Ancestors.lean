import LoopLint.Proofs.Path.Canonical

/-!
# The directories above a path

`Path.ancestors` takes the components of a path off its end one by one.  The directories that it
comes across are spelled plainly, with the text that `Path.ofSteps` gives to their components, and
so they are determined by their components (`Plain.eq_of_same`).  The directories behind one of them
are those above it (`ancestors_of_suffix`), and no two are the same (`pairwise_ancestors`).

This holds of every path.  Canonical paths are spelled plainly, but so are relative paths and paths
with a `..` in them, which are climbed as they are if the working directory is not known.
-/

namespace LoopLint
namespace Path

/-! ### Plain spelling -/

/-- A path consists of its root, if it has one, and its steps. -/
lemma components_eq_append_steps (p : Path) :
    p.components = (if p.isAbsolute then [.root] else []) ++ p.steps := by
  rw [steps]
  by_cases h : p.isAbsolute = true
  · rw [if_pos h, if_pos h, components, if_pos h]
    rfl
  · rw [if_neg h, if_neg h, List.nil_append]

/-- The steps of a path may stand behind its root. -/
lemma fits_steps (p : Path) : Fits p.isAbsolute p.steps := by
  have hsteps : ∀ c ∈ p.segments.filterMap component?, IsStep c := fun c hc =>
    isStep_of_mem_filterMap hc
  rw [steps, components]
  by_cases h : p.isAbsolute = true
  · rw [if_pos h, if_pos h]
    exact Fits.of_forall hsteps
  · rw [if_neg h, if_neg h, Bool.eq_false_iff.mpr h]
    split
    · exact ⟨.inr ⟨rfl, rfl⟩, hsteps⟩
    · exact Fits.of_forall hsteps

/-- A path that is joined from steps takes these steps. -/
lemma steps_ofSteps {absolute : Bool} {cs : List Component} (h : Fits absolute cs) :
    (ofSteps absolute cs).steps = cs := by
  have hcomponents := components_eq_append_steps (ofSteps absolute cs)
  rw [components_ofSteps h, isAbsolute_ofSteps h] at hcomponents
  exact (List.append_cancel_left hcomponents).symm

/-- The path is spelled with single slashes between its components. -/
def Plain (p : Path) : Prop :=
  ofSteps p.isAbsolute p.steps = p

/-- A path that is joined from steps is spelled plainly. -/
lemma plain_ofSteps {absolute : Bool} {cs : List Component} (h : Fits absolute cs) :
    (ofSteps absolute cs).Plain := by
  rw [Plain, isAbsolute_ofSteps h, steps_ofSteps h]

/-- A canonical path is spelled plainly. -/
lemma Canonical.plain {p : Path} (h : p.Canonical) : p.Plain := by
  obtain ⟨names, hnames, rfl⟩ := h
  rw [ofNames_eq_ofSteps]
  exact plain_ofSteps (Fits.of_forall (isStep_of_mem_map_name hnames))

/-- The root is no step. -/
lemma root_not_mem_steps (p : Path) : .root ∉ p.steps := by
  intro h
  exact absurd ((fits_steps p).text_of_mem h).2 (by decide)

/-- A path that is spelled plainly is determined by its components. -/
theorem Plain.eq_of_same {p q : Path} (hp : p.Plain) (hq : q.Plain) (h : p.same q = true) :
    p = q := by
  have hcomponents : p.components = q.components := eq_of_beq h
  rw [components_eq_append_steps, components_eq_append_steps q] at hcomponents
  have hroot := root_not_mem_steps p
  have hroot' := root_not_mem_steps q
  rw [← hp, ← hq]
  cases hpa : p.isAbsolute <;> cases hqa : q.isAbsolute <;>
    simp only [hpa, hqa, if_true, if_false, Bool.false_eq_true, List.nil_append,
      List.cons_append, List.cons.injEq, true_and] at hcomponents
  · rw [hcomponents]
  · rw [hcomponents] at hroot
    exact absurd List.mem_cons_self hroot
  · rw [← hcomponents] at hroot'
    exact absurd List.mem_cons_self hroot'
  · rw [hcomponents]

/-! ### Taking items off a list -/

section Upward

variable {α : Type} {as bs : List α}

/-- The row starts with the list itself. -/
lemma upward_eq_cons (as : List α) : upward as = as :: (upward as).tail := by
  cases as <;> rfl

/-- What stands in the row behind a list is what is left of that list. -/
lemma upward_of_suffix {rest : List (List α)} (h : bs :: rest <:+ upward as) :
    bs <:+ as ∧ upward bs = bs :: rest := by
  induction as with
  | nil =>
    rw [upward, List.suffix_cons_iff] at h
    rcases h with h | h
    · obtain ⟨rfl, rfl⟩ := List.cons.inj h
      exact ⟨List.suffix_rfl, rfl⟩
    · cases List.suffix_nil.mp h
  | cons a as ih =>
    rw [upward, List.suffix_cons_iff] at h
    rcases h with h | h
    · obtain ⟨rfl, rfl⟩ := List.cons.inj h
      exact ⟨List.suffix_rfl, rfl⟩
    · obtain ⟨hsuffix, heq⟩ := ih h
      exact ⟨hsuffix.trans (List.suffix_cons a as), heq⟩

/-- All lists in the row end the list. -/
lemma suffix_of_mem_upward (h : bs ∈ upward as) : bs <:+ as := by
  obtain ⟨lower, above, hsplit⟩ := List.append_of_mem h
  exact (upward_of_suffix ⟨lower, hsplit.symm⟩).1

/-- The lists in the row get shorter. -/
lemma pairwise_upward (as : List α) :
    (upward as).Pairwise fun bs cs => cs.length < bs.length := by
  induction as with
  | nil => exact List.pairwise_singleton _ _
  | cons a as ih =>
    rw [upward, List.pairwise_cons]
    refine ⟨fun bs hbs => ?_, ih⟩
    have hle := (suffix_of_mem_upward hbs).length_le
    rw [List.length_cons]
    omega

end Upward

/-! ### The row of ancestors -/

/-- The steps to a directory above a path may stand behind its root. -/
lemma fits_of_mem_upward {p : Path} {cs : List Component} (h : cs ∈ upward p.steps.reverse) :
    Fits p.isAbsolute cs.reverse := by
  refine (fits_steps p).of_isPrefix ?_
  rw [← List.reverse_suffix, List.reverse_reverse]
  exact suffix_of_mem_upward h

/-- A directory in the row of ancestors of a path is spelled plainly, and the rest of the row are
its own ancestors. -/
lemma ancestors_of_suffix {p d : Path} {rest : List Path} (h : d :: rest <:+ p.ancestors) :
    d.Plain ∧ d.ancestors = d :: rest := by
  obtain ⟨before, hsplit⟩ := h
  rw [ancestors, eq_comm, List.map_eq_append_iff] at hsplit
  obtain ⟨lower, row, hrow, -, hmap⟩ := hsplit
  obtain ⟨cs, above, rfl, rfl, rfl⟩ := List.map_eq_cons_iff.mp hmap
  have hfits : Fits p.isAbsolute cs.reverse := by
    refine fits_of_mem_upward ?_
    rw [hrow]
    exact List.mem_append_right _ List.mem_cons_self
  have hupward : upward cs = cs :: above := (upward_of_suffix ⟨lower, hrow.symm⟩).2
  refine ⟨plain_ofSteps hfits, ?_⟩
  rw [ancestors, steps_ofSteps hfits, isAbsolute_ofSteps hfits, List.reverse_reverse, hupward,
    List.map_cons]

/-- The ancestors of a path are spelled plainly. -/
lemma plain_of_mem_ancestors {p d : Path} (h : d ∈ p.ancestors) : d.Plain := by
  obtain ⟨lower, above, hsplit⟩ := List.append_of_mem h
  exact (ancestors_of_suffix ⟨lower, hsplit.symm⟩).1

/-- The ancestors of a path are different directories. -/
lemma pairwise_ancestors (p : Path) : p.ancestors.Pairwise fun d e => d.same e = false := by
  rw [ancestors, List.pairwise_map]
  refine (pairwise_upward _).imp_of_mem ?_
  intro cs ds hcs hds hlt
  rw [same, components_ofSteps (fits_of_mem_upward hcs),
    components_ofSteps (fits_of_mem_upward hds), beq_eq_false_iff_ne]
  intro heq
  rw [List.reverse_injective (List.append_cancel_left heq)] at hlt
  exact Nat.lt_irrefl _ hlt

/-- A path that is spelled plainly is the first of its ancestors. -/
lemma Plain.ancestors_eq {p : Path} (h : p.Plain) : ∃ rest, p.ancestors = p :: rest := by
  rw [ancestors, upward_eq_cons, List.map_cons, List.reverse_reverse, h]
  exact ⟨_, rfl⟩

end Path
end LoopLint
