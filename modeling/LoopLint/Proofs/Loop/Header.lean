import LoopLint.Proofs.Loop.Visit
import LoopLint.Proofs.Syntax.Grammar

/-!
# Uses of names in a loop header

The walk does not visit the header of a counted loop, its array excepted.  In a tree that follows
the grammar this passes over nothing but the loop's own index and what stands in type annotations
(`CountedLoop.text_eq_or_inAscription`): the declaration, the comparison and the step are spelled
with the index, numbers and signs.

The proof goes through the tests that recognise a header, one lemma for each.
-/

namespace LoopLint

variable {n m c d : Node} {index : String}

namespace Node

/-- `m` stands in a type annotation in the subtree of `n`. -/
def InAscription (n m : Node) : Prop :=
  ∃ t ∈ n.preorder, t.kind = .typeAscription ∧ m ∈ t.preorder

/-- What stands in a type annotation of a part stands in one of the whole. -/
lemma InAscription.of_mem_preorder (hc : c ∈ n.preorder) (h : c.InAscription m) :
    n.InAscription m := by
  obtain ⟨t, ht, hk, hm⟩ := h
  exact ⟨t, mem_preorder_trans hc ht, hk, hm⟩

/-- What stands in a type annotation of a child stands in one of the node. -/
lemma InAscription.of_mem_children (hc : c ∈ n.children) (h : c.InAscription m) :
    n.InAscription m :=
  h.of_mem_preorder (mem_preorder_of_mem_children hc)

/-- An annotation just below a node. -/
lemma inAscription_of_kind (hc : c ∈ n.children) (hk : c.kind = .typeAscription)
    (hm : m ∈ c.preorder) : n.InAscription m :=
  ⟨c, mem_preorder_of_mem_children hc, hk, hm⟩

/-- Taking parentheses away loses uses in type annotations only. -/
lemma Grammatical.mem_unwrap (hn : n.Grammatical) (hm : m ∈ n.preorder)
    (hr : m.isReference = true) : m ∈ n.unwrap.preorder ∨ n.InAscription m := by
  fun_induction unwrap n with
  | case1 n hk inner hinner ih =>
    obtain ⟨c, hc, hmc, hallow⟩ := hn.exists_child hm hr (by simp [isReference, hk])
    simp only [allows, hk, Bool.or_eq_true, isFirstNamed_eq_true_iff hc, beq_iff_eq] at hallow
    rcases hallow with hfirst | hkind
    · rw [hinner] at hfirst
      cases hfirst
      exact (ih (hn.of_mem_children hc) hmc).imp_right (·.of_mem_children hc)
    · exact Or.inr (inAscription_of_kind hc hkind hmc)
  | case2 => exact Or.inl hm
  | case3 => exact Or.inl hm

end Node

namespace CountedLoop

variable {l : CountedLoop}

open Node

/-- The clauses of a header stand below the loop. -/
lemma mem_preorder_of_clause? {f : Field} (h : clause? n f = some c) : c ∈ n.preorder := by
  obtain ⟨d, hd, hway⟩ := via_of_clause? h (Via.refl _ c)
  exact mem_preorder_of_mem_preorder_child (mem_children_of_child? hd) hway.1

/-- The uses in a clause of the header stand in its expression. -/
lemma mem_of_clause? {f : Field} (hg : d.Grammatical) (hd : n.child? f = some d)
    (h : clause? n f = some c) (hm : m ∈ d.preorder) (hr : m.isReference = true) :
    m ∈ c.preorder := by
  rw [clause?, hd, Option.bind_some] at h
  split at h
  · cases h
  · cases h
  · rename_i hk
    obtain ⟨e, he, hme, hallow⟩ := hg.exists_child hm hr (by simp [isReference, hk])
    simp only [allows, hk, isFirstNamed_eq_true_iff he] at hallow
    rw [hallow] at h
    cases h
    exact hme
  · cases h
    exact hm

/-- A declarator that sets its name to a number uses nothing else, its type aside. -/
lemma text_of_declarator {value : String} (hg : d.Grammatical)
    (hk : d.kind = .variableDeclarator) (hvalue : d.childIs .value (·.isNumber value) = true)
    (hname : d.childIs .name (·.isIdentifier index) = true) (hm : m ∈ d.preorder)
    (hr : m.isReference = true) : m.text = index ∨ d.InAscription m := by
  obtain ⟨c, hc, hmc, hallow⟩ := hg.exists_child hm hr (by simp [isReference, hk])
  have hgc := hg.of_mem_children hc
  simp only [allows, hk, Bool.or_eq_true, isPartOf_eq_true_iff hc, beq_iff_eq] at hallow
  rcases hallow with (hpart | hpart) | hkind
  · exact Or.inl (hgc.text_of_isIdentifier hmc hr (of_childIs hname hpart))
  · exact absurd (of_childIs hvalue hpart) (hgc.not_isNumber hmc hr)
  · exact Or.inr (inAscription_of_kind hc hkind hmc)

/-- The declaration of a loop's index uses nothing else, its type aside. -/
lemma text_of_zeroIndex? (hg : d.Grammatical) (h : zeroIndex? d = some index)
    (hm : m ∈ d.preorder) (hr : m.isReference = true) : m.text = index ∨ d.InAscription m := by
  unfold zeroIndex? at h
  split at h
  · rename_i hk
    split at h
    · rename_i declarator hlist
      split at h
      · rename_i hvalue
        obtain ⟨name, hname, rfl⟩ := Option.map_eq_some_iff.mp h
        obtain ⟨hname, hident⟩ := Option.filter_eq_some_iff.mp hname
        have hnr : d.isReference = false := by rcases hk with hk | hk <;> simp [isReference, hk]
        obtain ⟨c, hc, hmc, hallow⟩ := hg.exists_child hm hr hnr
        have hkind : (c.label.named && c.kind == .variableDeclarator) = true := by
          rcases hk with hk | hk <;> simpa [allows, hk] using hallow
        rw [Bool.and_eq_true, beq_iff_eq] at hkind
        -- The child is a declarator, and there is only one.
        have hmem : c ∈ d.namedChildren.filter (fun c => c.kind == .variableDeclarator) := by
          rw [List.mem_filter, namedChildren, List.mem_filter]
          simp [hc, hkind.1, hkind.2, Kind.isComment]
        rw [hlist, List.mem_singleton] at hmem
        subst hmem
        have hid : c.childIs .name (·.isIdentifier name.text) = true := by
          refine childIs_eq_true_iff.mpr ⟨name, hname, ?_⟩
          simpa [isIdentifier] using hident
        exact (text_of_declarator (hg.of_mem_children hc) hkind.2 hvalue hid hmc hr).imp_right
          (·.of_mem_children hc)
      · cases h
    · cases h
  · cases h

/-- The sum of the index and one uses nothing but the index. -/
lemma text_of_isSuccessor (hg : n.Grammatical) (h : isSuccessor n index = true)
    (hm : m ∈ n.preorder) (hr : m.isReference = true) : m.text = index := by
  simp only [isSuccessor, Bool.and_eq_true, Bool.or_eq_true, beq_iff_eq] at h
  obtain ⟨⟨hk, -⟩, hoperands⟩ := h
  obtain ⟨c, hc, hmc⟩ := hg.exists_operand hm hr (Or.inl hk)
  have hgc : c.Grammatical :=
    hg.of_mem_children (hc.elim mem_children_of_child? mem_children_of_child?)
  rcases hoperands with ⟨hleft, hright⟩ | ⟨hleft, hright⟩ <;> rcases hc with hc | hc
  · exact hgc.text_of_isIdentifier hmc hr (of_childIs hleft hc)
  · exact absurd (of_childIs hright hc) (hgc.not_isNumber hmc hr)
  · exact absurd (of_childIs hleft hc) (hgc.not_isNumber hmc hr)
  · exact hgc.text_of_isIdentifier hmc hr (of_childIs hright hc)

/-- The step of a counted loop uses nothing but the index. -/
lemma text_of_isIncrement (hg : n.Grammatical) (h : isIncrement n index = true)
    (hm : m ∈ n.preorder) (hr : m.isReference = true) : m.text = index := by
  unfold isIncrement at h
  split at h
  · rename_i hk
    rw [Bool.and_eq_true] at h
    obtain ⟨c, hc, hmc, hallow⟩ := hg.exists_child hm hr (by simp [isReference, hk])
    simp only [allows, hk, isFirstNamed_eq_true_iff hc] at hallow
    rw [hallow, Option.any_some] at h
    exact (hg.of_mem_children hc).text_of_isIdentifier hmc hr h.2
  · rename_i hk
    simp only [Bool.and_eq_true] at h
    obtain ⟨c, hc | hc, hmc⟩ := hg.exists_operand hm hr (Or.inr (Or.inr hk))
    · exact (hg.of_mem_children (mem_children_of_child? hc)).text_of_isIdentifier hmc hr
        (of_childIs h.1.1 hc)
    · exact absurd (of_childIs h.2 hc)
        ((hg.of_mem_children (mem_children_of_child? hc)).not_isNumber hmc hr)
  · rename_i hk
    rw [Bool.and_eq_true] at h
    obtain ⟨c, hc | hc, hmc⟩ := hg.exists_operand hm hr (Or.inr (Or.inl hk))
    · exact (hg.of_mem_children (mem_children_of_child? hc)).text_of_isIdentifier hmc hr
        (of_childIs h.1 hc)
    · exact text_of_isSuccessor (hg.of_mem_children (mem_children_of_child? hc))
        (of_childIs h.2 hc) hmc hr
  · cases h

/-- A use in the length of an array stands in the array, or in a type annotation in parentheses
around it. -/
lemma mem_or_inAscription_of_length (hg : n.Grammatical) (hk : n.kind = .member)
    (hlength : n.childIs .property isLengthName = true) (ho : n.child? .object = some d)
    (hm : m ∈ n.preorder) (hr : m.isReference = true) :
    m ∈ d.unwrap.preorder ∨ n.InAscription m := by
  obtain ⟨c, hc, hmc, hallow⟩ := hg.exists_child hm hr (by simp [isReference, hk])
  have hgc := hg.of_mem_children hc
  simp only [allows, hk, Bool.or_eq_true, isPartOf_eq_true_iff hc, beq_iff_eq] at hallow
  rcases hallow with (hpart | hpart) | hkind
  · rw [ho] at hpart
    cases hpart
    exact (hgc.mem_unwrap hmc hr).imp_right (·.of_mem_children hc)
  · -- The name `length` behind the dot is no use: it is not the key of an entry.
    have hname := of_childIs hlength hpart
    rw [isLengthName, Bool.and_eq_true, beq_iff_eq] at hname
    obtain rfl := hgc.eq_of_allows_nothing hmc hr fun _ => by simp [allows, hname.1]
    simp [isReference, hname.1, isEntryKey, parent?_of_mem_children hc, hk] at hr
  · obtain rfl := hgc.eq_of_allows_nothing hmc hr fun _ => by
      simp [allows, hkind, Kind.optionalChain]
    simp [isReference, hkind, Kind.optionalChain] at hr

/-- The uses in the condition are the index and those in the array, type annotations aside. -/
lemma mem_or_text_of_bound? (hg : n.Grammatical) (h : bound? n index = some c)
    (hm : m ∈ n.preorder) (hr : m.isReference = true) :
    m ∈ c.preorder ∨ m.text = index ∨ n.InAscription m := by
  unfold bound? at h
  split at h
  · rename_i hn
    obtain ⟨limit, hlimit, h⟩ := Option.bind_eq_some_iff.mp h
    split at h
    · rename_i hlim
      obtain ⟨object, hobject, rfl⟩ := Option.map_eq_some_iff.mp h
      obtain ⟨e, he | he, hme⟩ := hg.exists_operand hm hr (Or.inl hn.1)
      · have hge := hg.of_mem_children (mem_children_of_child? he)
        exact Or.inr (Or.inl (hge.text_of_isIdentifier hme hr (of_childIs hn.2.2 he)))
      · rw [hlimit] at he
        cases he
        have hmem := mem_children_of_child? hlimit
        exact (mem_or_inAscription_of_length (hg.of_mem_children hmem) hlim.1 hlim.2 hobject hme
          hr).imp_right fun hasc => Or.inr (hasc.of_mem_children hmem)
    · cases h
  · cases h

/-- A use in a counted loop that is neither in the array nor in the body is the loop's index, or
stands in a type annotation. -/
theorem text_eq_or_inAscription (hg : n.Grammatical) (hl : ofNode? n = some l)
    (hm : m ∈ n.preorder) (hr : m.isReference = true) (harray : m ∉ l.array.preorder)
    (hbody : m ∉ l.body.preorder) : m.text = l.index ∨ n.InAscription m := by
  obtain ⟨hk, -, hb, i, condition, step, hi, hc, hs, hindex, hstep, ha⟩ :=
    ofNode?_eq_some_iff.mp hl
  obtain ⟨d, hd, hmd, hallow⟩ := hg.exists_child hm hr (by simp [isReference, hk])
  have hgd := hg.of_mem_children hd
  simp only [allows, hk, Bool.or_eq_true, isPartOf_eq_true_iff hd] at hallow
  rcases hallow with ((hpart | hpart) | hpart) | hpart
  · rw [hi] at hpart
    cases hpart
    exact (text_of_zeroIndex? hgd hindex hmd hr).imp_right (·.of_mem_children hd)
  · have hmem := mem_preorder_of_clause? hc
    have hmc := mem_of_clause? hgd hpart hc hmd hr
    rcases mem_or_text_of_bound? (hg.of_mem_preorder hmem) ha hmc hr with hma | htext | hasc
    · exact absurd hma harray
    · exact Or.inl htext
    · exact Or.inr (hasc.of_mem_preorder hmem)
  · have hmem := mem_preorder_of_clause? hs
    have hms := mem_of_clause? hgd hpart hs hmd hr
    exact Or.inl (text_of_isIncrement (hg.of_mem_preorder hmem) hstep hms hr)
  · rw [hb] at hpart
    cases hpart
    exact absurd hmd hbody

end CountedLoop
end LoopLint
