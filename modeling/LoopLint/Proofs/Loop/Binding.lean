import LoopLint.Proofs.Loop.Visit

/-!
# Which loop a use of a name belongs to

A use of a name belongs to the innermost counted loop around it whose index has that name.  "Around"
means on the way of the visit: a loop encloses what is visited from its array and its body.

`CountedLoop.Binds` says this of a loop and a use.  Seen from below, `Node.freeUses` lists the uses
that no loop of a subtree binds; they are left to the loops further out.  The two fit together:
`mem_freeUses_iff` describes the list without recursion, and `mem_boundUses_iff` finds the uses of a
loop's index among the free uses of its array and its body.
-/

namespace LoopLint

variable {n m r c : Node} {l k : CountedLoop}

namespace CountedLoop

/-- The nodes that are visited while the loop is open: those of its array and of its body. -/
def Encloses (l : CountedLoop) (m : Node) : Prop :=
  Node.Visited l.array m ∨ Node.Visited l.body m

/-- The loop is the one that a use of a name belongs to: the use spells the loop's index, and
between the loop and the use there is no counted loop with the same index. -/
def Binds (l : CountedLoop) (r : Node) : Prop :=
  r.isReference = true ∧ r.text = l.index ∧ l.Encloses r ∧
    ∀ k, ofNode? k.node = some k → l.Encloses k.node → k.Encloses r → k.index ≠ l.index

/-- Every use of the index reads an element of the loop's array. -/
def OnlyReads (l : CountedLoop) : Prop :=
  ∀ r, l.Binds r → r.isPureRead l.array = true

/-- What a counted loop encloses is what is visited from its parts. -/
lemma encloses_iff_exists_mem_parts (hl : ofNode? n = some l) :
    l.Encloses m ↔ ∃ c ∈ n.parts, Node.Visited c m := by
  simp [Encloses, Node.parts_of_loop hl]

/-- A counted loop encloses what is visited from it, itself excepted. -/
lemma visited_iff_eq_or_encloses (hl : ofNode? n = some l) :
    Node.Visited n m ↔ m = n ∨ l.Encloses m := by
  rw [Node.visited_iff, encloses_iff_exists_mem_parts hl]

/-- What a visited loop encloses is visited. -/
lemma Encloses.visited (hl : ofNode? l.node = some l) (h : l.Encloses m) :
    Node.Visited l.node m :=
  (visited_iff_eq_or_encloses hl).mpr (Or.inr h)

/-- A visited loop around something that is visited from a part of `n` is `n`, or is itself visited
from that part. -/
lemma Encloses.eq_or_visited_part (hk : ofNode? k.node = some k) (hkm : k.Encloses m)
    (hc : c ∈ n.parts) (hcm : Node.Visited c m) (hnk : Node.Visited n k.node) :
    k.node = n ∨ Node.Visited c k.node := by
  rcases Node.visited_iff.mp hnk with heq | ⟨d, hd, hdk⟩
  · exact Or.inl heq
  · obtain rfl := Node.Visited.eq_of_mem_parts hc hd hcm (hdk.trans (hkm.visited hk))
    exact Or.inr hdk

end CountedLoop

namespace Node

/-- Below a use of a name nothing is visited. -/
lemma isAtom_of_isReference (h : n.isReference = true) : n.isAtom = true := by
  unfold isReference at h
  unfold isAtom
  split at h <;> simp_all

/-- A node below which something is visited is no use of a name. -/
lemma not_isReference_of_not_isAtom (h : n.isAtom = false) : n.isReference = false := by
  cases hr : n.isReference with
  | false => rfl
  | true =>
    rw [isAtom_of_isReference hr] at h
    cases h

/-- A counted loop is no use of a name. -/
lemma not_isReference_of_loop (hl : CountedLoop.ofNode? n = some l) : n.isReference = false := by
  simp [isReference, CountedLoop.kind_of_ofNode? hl]

/-- Nothing is visited below a use of a name. -/
lemma not_isReference_of_mem_parts (hc : c ∈ n.parts) : n.isReference = false := by
  rcases parts_cases n with ⟨l, hl, -⟩ | ⟨-, -, hp⟩ | ⟨-, ha, -⟩
  · exact not_isReference_of_loop hl
  · rw [hp] at hc
    cases hc
  · exact not_isReference_of_not_isAtom ha

/-! ### Free uses -/

/-- The uses of names, in the order of the visit, that belong to no loop visited from the node. -/
def freeUses (n : Node) : List Node :=
  let below := n.parts.attach.flatMap (fun c => freeUses c.1)
  match CountedLoop.ofNode? n with
  | some l => below.filter (fun r => r.text ≠ l.index)
  | none => if n.isReference then [n] else below
termination_by sizeOf n.focus
decreasing_by exact sizeOf_focus_lt_of_mem_parts c.2

/-- The free uses in a node: a loop binds those of its index, and a use of a name is its own. -/
lemma freeUses_eq (n : Node) :
    n.freeUses =
      match CountedLoop.ofNode? n with
      | some l => (n.parts.flatMap freeUses).filter (fun r => r.text ≠ l.index)
      | none => if n.isReference then [n] else n.parts.flatMap freeUses := by
  rw [freeUses, List.flatMap_subtype (g := freeUses) (fun _ _ => rfl), List.unattach_attach]

/-- Between a node and a use that is free in it no loop has an index of that name. -/
def FreeIn (n r : Node) : Prop :=
  Visited n r ∧ ∀ k, CountedLoop.ofNode? k.node = some k → Visited n k.node → k.Encloses r →
    k.index ≠ r.text

/-- A use that is free in a node is the node itself or free in one of its parts. -/
lemma FreeIn.part (h : FreeIn n r) (hc : c ∈ n.parts) (hr : Visited c r) : FreeIn c r :=
  ⟨hr, fun k hk hck => h.2 k hk (hck.of_part hc)⟩

/-- A use that is free in a part is free in the node unless the node is a loop with that index. -/
lemma FreeIn.of_part (hc : c ∈ n.parts) (h : FreeIn c r)
    (hn : ∀ l, CountedLoop.ofNode? n = some l → l.index ≠ r.text) : FreeIn n r := by
  refine ⟨h.1.of_part hc, fun k hk hnk hkr => ?_⟩
  rcases hkr.eq_or_visited_part hk hc h.1 hnk with heq | hck
  · rw [heq] at hk
    exact hn k hk
  · exact h.2 k hk hck hkr

/-- A use is free in a loop if it is free in its array or its body and spells another name. -/
lemma freeIn_loop_iff (hl : CountedLoop.ofNode? n = some l) (hr : r.isReference = true) :
    FreeIn n r ↔ (∃ c ∈ n.parts, FreeIn c r) ∧ r.text ≠ l.index := by
  constructor
  · intro h
    rcases (CountedLoop.visited_iff_eq_or_encloses hl).mp h.1 with rfl | henc
    · rw [not_isReference_of_loop hl] at hr
      cases hr
    · have hnode := CountedLoop.node_of_ofNode? hl
      obtain ⟨c, hc, hcr⟩ := (CountedLoop.encloses_iff_exists_mem_parts hl).mp henc
      refine ⟨⟨c, hc, h.part hc hcr⟩, fun heq => ?_⟩
      subst hnode
      exact h.2 l hl .root henc heq.symm
  · rintro ⟨⟨c, hc, hcr⟩, hne⟩
    refine hcr.of_part hc fun k hk heq => ?_
    rw [hl] at hk
    cases hk
    exact hne heq.symm

/-- The free uses of a node, without recursion. -/
theorem mem_freeUses_iff : r ∈ n.freeUses ↔ r.isReference = true ∧ FreeIn n r := by
  induction n using visitInduction with
  | step n ih =>
    -- The uses that the parts leave over, by the induction hypothesis.
    have hparts : r ∈ n.parts.flatMap freeUses ↔
        r.isReference = true ∧ ∃ c ∈ n.parts, FreeIn c r := by
      rw [List.mem_flatMap]
      constructor
      · rintro ⟨c, hc, hr⟩
        obtain ⟨href, hfree⟩ := (ih c hc).mp hr
        exact ⟨href, c, hc, hfree⟩
      · rintro ⟨href, c, hc, hfree⟩
        exact ⟨c, hc, (ih c hc).mpr ⟨href, hfree⟩⟩
    rw [freeUses_eq]
    cases hl : CountedLoop.ofNode? n with
    | some l =>
      simp only [List.mem_filter, decide_eq_true_eq]
      rw [hparts, and_assoc]
      exact and_congr_right fun href => (freeIn_loop_iff hl href).symm
    | none =>
      have hno : ∀ l, CountedLoop.ofNode? n = some l → l.index ≠ r.text := by
        intro l h
        rw [hl] at h
        cases h
      by_cases hn : n.isReference = true
      · have hp := parts_of_atom hl (isAtom_of_isReference hn)
        rw [if_pos hn, List.mem_singleton]
        constructor
        · rintro rfl
          refine ⟨hn, .root, fun k hk hnk _ => ?_⟩
          rcases visited_iff.mp hnk with heq | ⟨d, hd, -⟩
          · rw [heq] at hk
            exact hno k hk
          · rw [hp] at hd
            cases hd
        · rintro ⟨-, hv, -⟩
          rcases visited_iff.mp hv with rfl | ⟨d, hd, -⟩
          · rfl
          · rw [hp] at hd
            cases hd
      · rw [if_neg hn, hparts]
        refine and_congr_right fun href => ⟨fun ⟨c, hc, h⟩ => h.of_part hc hno, fun h => ?_⟩
        rcases visited_iff.mp h.1 with rfl | ⟨c, hc, hcr⟩
        · exact absurd href hn
        · exact ⟨c, hc, h.part hc hcr⟩

end Node

namespace CountedLoop

/-- The uses that a loop binds, in the order of the visit. -/
def boundUses (l : CountedLoop) : List Node :=
  (l.array.freeUses ++ l.body.freeUses).filter (fun r => r.text = l.index)

/-- Whether every use that the loop binds reads an element of its array. -/
def onlyReads (l : CountedLoop) : Bool :=
  l.boundUses.all (fun r => r.isPureRead l.array)

/-- The uses that a loop binds, without recursion. -/
theorem mem_boundUses_iff (hl : ofNode? l.node = some l) : r ∈ l.boundUses ↔ l.Binds r := by
  have hfree : r ∈ l.array.freeUses ++ l.body.freeUses ↔
      r.isReference = true ∧ ∃ c ∈ l.node.parts, Node.FreeIn c r := by
    rw [Node.parts_of_loop hl, List.mem_append, Node.mem_freeUses_iff, Node.mem_freeUses_iff]
    simp [and_or_left]
  rw [boundUses, List.mem_filter, hfree, decide_eq_true_eq]
  constructor
  · rintro ⟨⟨href, c, hc, hcr⟩, htext⟩
    refine ⟨href, htext, (encloses_iff_exists_mem_parts hl).mpr ⟨c, hc, hcr.1⟩, ?_⟩
    intro k hk hlk hkr
    obtain ⟨d, hd, hdk⟩ := (encloses_iff_exists_mem_parts hl).mp hlk
    obtain rfl := Node.Visited.eq_of_mem_parts hc hd hcr.1 (hdk.trans (hkr.visited hk))
    rw [← htext]
    exact hcr.2 k hk hdk hkr
  · rintro ⟨href, htext, hlr, hk⟩
    obtain ⟨c, hc, hcr⟩ := (encloses_iff_exists_mem_parts hl).mp hlr
    refine ⟨⟨href, c, hc, hcr, fun k hkn hck hkr => ?_⟩, htext⟩
    rw [htext]
    exact hk k hkn ((encloses_iff_exists_mem_parts hl).mpr ⟨c, hc, hck⟩) hkr

/-- The test for reads agrees with what it tests. -/
theorem onlyReads_eq_true_iff (hl : ofNode? l.node = some l) :
    l.onlyReads = true ↔ l.OnlyReads := by
  rw [onlyReads, List.all_eq_true]
  exact forall_congr' fun r => imp_congr_left (mem_boundUses_iff hl)

end CountedLoop
end LoopLint
