import LoopLint.Proofs.Loop.Findings

/-!
# Loops are judged on their own

What a walk finds in a node does not depend on the loops that are open when it comes there, nor on
what it found before.  Uses may well concern the open loops, but none of these can take a use away
from a loop further in.

So a part of a tree is judged alike wherever the check starts.  Only comments reach further: one
above or beside the part may silence a row of it.  Where no comment is a directive, the diagnostics
of a visited node stand together among those of the root (`checkNode_visited_isInfix`).
-/

namespace LoopLint

variable {n m c : Node}

/-! ### Comments of a part -/

namespace Node

/-- Comments have no parts. -/
lemma isComment_eq_false_of_mem_parts (h : c ∈ n.parts) : n.kind.isComment = false := by
  rcases parts_cases n with ⟨l, hl, -⟩ | ⟨-, -, hp⟩ | ⟨-, ha, -⟩
  · rw [CountedLoop.kind_of_ofNode? hl]
    rfl
  · rw [hp] at h
    cases h
  · cases hk : n.kind <;> simp_all [isAtom, Kind.isComment]

/-- What is visited has no comments but those of the root. -/
lemma Visited.comments_subset (h : Visited n m) : m.focus.comments ⊆ n.focus.comments := by
  induction n using visitInduction with
  | step n ih =>
    rcases visited_iff.mp h with rfl | ⟨c, hc, hm⟩
    · exact List.Subset.refl _
    · have hway : Via (·.kind.isComment = false) n c := by
        refine (via_of_mem_parts hc).mono ?_
        rintro t (rfl | ht)
        · exact isComment_eq_false_of_mem_parts hc
        · cases hk : t.kind <;> simp_all [Kind.isWrapping, Kind.isComment]
      exact List.Subset.trans (ih c hc hm) hway.comments_subset

/-- Where no body is missing, none is missing below a visited node. -/
lemma Complete.visited (hn : n.Complete) (h : Visited n m) : m.Complete :=
  fun r hr => hn r (h.trans hr)

/-- What is found in a visited node is found together in the root. -/
lemma Visited.findings_isInfix (s : Suppression) (h : Visited n m) :
    m.findings s <:+: n.findings s :=
  (h.visitOrder_isInfix.filterMap CountedLoop.ofNode?).filter _

end Node

/-! ### Suppression -/

/-- Where no comment is a directive, nothing is silenced. -/
lemma Suppression.ofTree_eq (source : String) {t : Tree}
    (h : ∀ c ∈ t.comments, Directive.ofComment? c.text = none) :
    Suppression.ofTree source t = ⟨false, []⟩ := by
  have hrows : t.comments.flatMap (rowsOf source.toList) = [] := by
    rw [List.flatMap_eq_nil_iff]
    intro c hc
    simp [rowsOf, h c hc]
  have hfile :
      t.comments.any (fun c => Directive.ofComment? c.text == some .ignoreFile) = false := by
    rw [List.any_eq_false]
    intro c hc
    simp [h c hc]
  rw [ofTree, hrows, hfile]

/-! ### Two walks -/

/-- Walks over one node from any two states fail alike or find the same loops. -/
lemma Walk.run_events_alike (s : Suppression) (n : Node) (w₁ w₂ : Walk) :
    (∃ e, w₁.run s n.events = .error e ∧ w₂.run s n.events = .error e) ∨
      ∃ v₁ v₂ added, w₁.run s n.events = .ok v₁ ∧ w₂.run s n.events = .ok v₂ ∧
        v₁.found = w₁.found ++ added ∧ v₂.found = w₂.found ++ added := by
  rw [run_events, run_events, after, after]
  by_cases hn : n.Complete
  · rw [if_pos hn, if_pos hn]
    exact Or.inr ⟨_, _, n.findings s, rfl, rfl, rfl, rfl⟩
  · rw [if_neg hn, if_neg hn]
    exact Or.inl ⟨_, rfl, rfl⟩

/-- Enclosing loops never influence the verdicts on the loops inside them: from any two states a
walk over a node fails alike or finds the same, and in a tree without directives the diagnostics of
any visited node stand together among those of the root. -/
theorem checkNode_visited_isInfix :
    (∀ s (n : Node) w₁ w₂,
      (∃ e, Walk.run s w₁ n.events = .error e ∧ Walk.run s w₂ n.events = .error e) ∨
        ∃ v₁ v₂ added, Walk.run s w₁ n.events = .ok v₁ ∧ Walk.run s w₂ n.events = .ok v₂ ∧
          v₁.found = w₁.found ++ added ∧ v₂.found = w₂.found ++ added) ∧
      ∀ source (root m : Node) diagnostics,
        (∀ c ∈ root.focus.comments, Directive.ofComment? c.text = none) → root.Visited m →
          (checkNode source root).value = .ok diagnostics →
            ∃ block, (checkNode source m).value = .ok block ∧ block <:+: diagnostics := by
  refine ⟨Walk.run_events_alike, fun source root m diagnostics hdir hm hroot => ?_⟩
  have hs := Suppression.ofTree_eq source hdir
  have hs' := Suppression.ofTree_eq source fun c hc => hdir c (hm.comments_subset hc)
  have hw : (Suppression.ofTree source root.focus).wholeFile = false := by rw [hs]
  have hw' : (Suppression.ofTree source m.focus).wholeFile = false := by rw [hs']
  rw [checkNode_value hw] at hroot
  split at hroot
  · rename_i hcomplete
    cases hroot
    refine ⟨_, by rw [checkNode_value hw', if_pos (hcomplete.visited hm)], ?_⟩
    rw [hs, hs']
    exact (hm.findings_isInfix _).map _
  · cases hroot

end LoopLint
