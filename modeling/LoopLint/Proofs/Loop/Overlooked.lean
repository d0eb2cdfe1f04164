import LoopLint.Proofs.Loop.Findings
import LoopLint.Proofs.Loop.Header

/-!
# Uses that are overlooked

A reader of a loop looks for its index everywhere in the array and in the body
(`CountedLoop.Uses`); the walk looks where it visits (`CountedLoop.Binds`).  The two differ in the
headers of nested loops, which the walk passes over.  In a tree that follows the grammar they differ
there in one point: a type annotation in such a header may speak of the index of a loop further out,
and the walk does not see it (`CountedLoop.Overlooks`).

So a loop is reported as soon as all other uses are reads (`reported_iff_uses_read`), and
`nestedTree` is a tree where a use is overlooked that is not.
-/

namespace LoopLint

variable {n m r c : Node} {l k : CountedLoop}

namespace CountedLoop

/-- The node stands in the array or in the body. -/
def Contains (l : CountedLoop) (m : Node) : Prop :=
  m ∈ l.array.preorder ∨ m ∈ l.body.preorder

/-- A use of the loop's index anywhere in its array or its body, outside nested counted loops with
an index of the same name. -/
def Uses (l : CountedLoop) (m : Node) : Prop :=
  m.isReference = true ∧ m.text = l.index ∧ l.Contains m ∧
    ∀ k, ofNode? k.node = some k → l.Contains k.node → m ∈ k.node.preorder → k.index ≠ l.index

/-- The node stands in a type annotation in the header. -/
def Hides (k : CountedLoop) (m : Node) : Prop :=
  k.node.InAscription m ∧ ¬ k.Contains m

/-- The node stands in a type annotation in the header of a nested counted loop. -/
def Overlooks (l : CountedLoop) (m : Node) : Prop :=
  ∃ k, ofNode? k.node = some k ∧ l.Contains k.node ∧ k.Hides m

/-- The check of `root` reports the loop. -/
def Reported (source : String) (root : Node) (l : CountedLoop) : Prop :=
  (Suppression.ofTree source root.focus).wholeFile = false ∧
    ∃ w, Walk.start.run (Suppression.ofTree source root.focus) root.events = .ok w ∧ l ∈ w.found

/-- What a loop encloses it contains. -/
lemma Encloses.contains (h : l.Encloses m) : l.Contains m :=
  h.imp Node.Visited.mem_preorder Node.Visited.mem_preorder

/-- A counted loop contains what stands in its parts. -/
lemma contains_iff_exists_mem_parts (hl : ofNode? n = some l) :
    l.Contains m ↔ ∃ c ∈ n.parts, m ∈ c.preorder := by
  simp [Contains, Node.parts_of_loop hl]

/-- What a loop contains stands below its node. -/
lemma Contains.mem_preorder (hl : ofNode? n = some l) (h : l.Contains m) : m ∈ n.preorder := by
  obtain ⟨c, hc, hm⟩ := (contains_iff_exists_mem_parts hl).mp h
  exact Node.mem_preorder_trans (Node.mem_preorder_of_mem_parts hc) hm

/-- The declaration of the index stands in the header. -/
lemma not_contains_of_initializer (hl : ofNode? n = some l) (hc : n.child? .initializer = some c)
    (hm : m ∈ c.preorder) : ¬ l.Contains m := by
  rintro (harray | hbody)
  · obtain ⟨d, hd, hway⟩ := array_of_ofNode? hl
    cases Node.field_eq_of_mem_preorder hc hd hm (Node.mem_preorder_trans hway.1 harray)
  · cases Node.field_eq_of_mem_preorder hc (body_of_ofNode? hl) hm hbody

end CountedLoop

namespace Node

/-- Between a node and one that is visited from it, every counted loop is visited. -/
lemma Visited.through_loop (hr : Visited n r) (hk : CountedLoop.ofNode? m = some k)
    (hm : m ∈ n.preorder) (hrm : r ∈ m.preorder) : Visited n m ∧ Visited m r := by
  induction n using visitInduction with
  | step n ih =>
    rcases visited_iff.mp hr with rfl | ⟨c, hc, hcr⟩
    · obtain rfl := mem_preorder_antisymm hm hrm
      exact ⟨.root, .root⟩
    · rcases mem_preorder_or_mem_preorder hrm hcr.mem_preorder with hcm | hmc
      · -- The loop is above the part: it is `n` itself, or else it would be taken off an array.
        rcases (via_of_mem_parts hc).2 m hm hcm with rfl | rfl | hwrap
        · exact ⟨.of_part hc .root, hcr⟩
        · exact ⟨.root, hr⟩
        · rw [CountedLoop.kind_of_ofNode? hk] at hwrap
          cases hwrap
      · obtain ⟨hcm, hmr⟩ := ih c hc hcr hmc
        exact ⟨hcm.of_part hc, hmr⟩

/-- In a tree that follows the grammar, a use is visited unless it stands in the header of a counted
loop; there it is that loop's index or in a type annotation. -/
lemma Grammatical.visited_or_header (hn : n.Grammatical) (hm : m ∈ n.preorder)
    (hr : m.isReference = true) :
    Visited n m ∨ ∃ k, CountedLoop.ofNode? k.node = some k ∧ k.node ∈ n.preorder ∧
      m ∈ k.node.preorder ∧ (m.text = k.index ∨ k.Hides m) := by
  induction n using visitInduction with
  | step n ih =>
    -- In a part of the node the induction hypothesis applies.
    have hpart : ∀ c ∈ n.parts, m ∈ c.preorder →
        Visited n m ∨ ∃ k, CountedLoop.ofNode? k.node = some k ∧ k.node ∈ n.preorder ∧
          m ∈ k.node.preorder ∧ (m.text = k.index ∨ k.Hides m) := by
      intro c hc hmc
      have hcn := mem_preorder_of_mem_parts hc
      rcases ih c hc (hn.of_mem_preorder hcn) hmc with hv | ⟨k, hk, hkc, hmk, h⟩
      · exact Or.inl (hv.of_part hc)
      · exact Or.inr ⟨k, hk, mem_preorder_trans hcn hkc, hmk, h⟩
    rcases parts_cases n with ⟨l, hl, -⟩ | ⟨_, ha, _⟩ | ⟨_, _, hp⟩
    · by_cases hin : l.Contains m
      · obtain ⟨c, hc, hmc⟩ := (CountedLoop.contains_iff_exists_mem_parts hl).mp hin
        exact hpart c hc hmc
      · have hnode := CountedLoop.node_of_ofNode? hl
        have hhead := CountedLoop.text_eq_or_inAscription hn hl hm hr
          (fun h => hin (Or.inl h)) (fun h => hin (Or.inr h))
        refine Or.inr ⟨l, ?_, ?_, ?_, ?_⟩
        · rwa [hnode]
        · rw [hnode]
          exact self_mem_preorder n
        · rwa [hnode]
        · rw [CountedLoop.Hides, hnode]
          exact hhead.imp_right fun hasc => ⟨hasc, hin⟩
    · have hnone : ∀ c, n.allows c = false := by
        intro c
        unfold isAtom at ha
        split at ha <;> simp_all [allows]
      obtain rfl := hn.eq_of_allows_nothing hm hr hnone
      exact Or.inl .root
    · rcases mem_preorder_iff.mp hm with rfl | ⟨c, hc, hmc⟩
      · exact Or.inl .root
      · exact hpart c (by rwa [hp]) hmc

end Node

namespace CountedLoop

/-- A loop between a loop and a use that is visited from it is visited, too. -/
lemma Encloses.through_loop (hl : ofNode? l.node = some l) (hr : l.Encloses r)
    (href : r.isReference = true) (hk : ofNode? k.node = some k) (hlk : l.Contains k.node)
    (hkr : r ∈ k.node.preorder) : l.Encloses k.node ∧ k.Encloses r := by
  obtain ⟨c, hc, hcr⟩ := (encloses_iff_exists_mem_parts hl).mp hr
  obtain ⟨d, hd, hdk⟩ := (contains_iff_exists_mem_parts hl).mp hlk
  -- Loop and use stand in the same part.
  obtain rfl := Node.eq_of_mem_preorder_parts hc hd hcr.mem_preorder
    (Node.mem_preorder_trans hdk hkr)
  obtain ⟨hck, hkr⟩ := hcr.through_loop hk hdk hkr
  refine ⟨(encloses_iff_exists_mem_parts hl).mpr ⟨c, hc, hck⟩, ?_⟩
  rcases (visited_iff_eq_or_encloses hk).mp hkr with rfl | henc
  · rw [Node.not_isReference_of_loop hk] at href
    cases href
  · exact henc

/-- What a loop binds it uses. -/
lemma Binds.uses (hl : ofNode? l.node = some l) (h : l.Binds r) : l.Uses r := by
  obtain ⟨href, htext, henc, hinner⟩ := h
  refine ⟨href, htext, henc.contains, fun k hk hlk hkr => ?_⟩
  obtain ⟨hlk, hkr⟩ := henc.through_loop hl href hk hlk hkr
  exact hinner k hk hlk hkr

/-- What a loop binds is not overlooked. -/
lemma Binds.not_overlooks (hl : ofNode? l.node = some l) (h : l.Binds r) : ¬ l.Overlooks r := by
  rintro ⟨k, hk, hlk, ⟨t, ht, -, hrt⟩, hnot⟩
  have hkr := (h.2.2.1.through_loop hl h.1 hk hlk (Node.mem_preorder_trans ht hrt)).2
  exact hnot hkr.contains

/-- A use that is not overlooked is bound, in a tree that follows the grammar. -/
lemma Uses.binds (hg : l.node.Grammatical) (hl : ofNode? l.node = some l) (h : l.Uses m)
    (hnot : ¬ l.Overlooks m) : l.Binds m := by
  obtain ⟨href, htext, hcon, hinner⟩ := h
  obtain ⟨c, hc, hmc⟩ := (contains_iff_exists_mem_parts hl).mp hcon
  have hcon' : ∀ t ∈ c.preorder, l.Contains t := fun t ht =>
    (contains_iff_exists_mem_parts hl).mpr ⟨c, hc, ht⟩
  have hgc := hg.of_mem_preorder (Node.mem_preorder_of_mem_parts hc)
  rcases hgc.visited_or_header hmc href with hv | ⟨k, hk, hkc, hmk, heq | hhide⟩
  · refine ⟨href, htext, (encloses_iff_exists_mem_parts hl).mpr ⟨c, hc, hv⟩, ?_⟩
    exact fun k hk hlk hkm => hinner k hk hlk.contains (hkm.contains.mem_preorder hk)
  · exact absurd (heq.symm.trans htext) (hinner k hk (hcon' _ hkc) hmk)
  · exact absurd ⟨k, hk, hcon' _ hkc, hhide⟩ hnot

/-- The uses that a loop binds are those that are not overlooked. -/
theorem binds_iff (hg : l.node.Grammatical) (hl : ofNode? l.node = some l) :
    l.Binds m ↔ l.Uses m ∧ ¬ l.Overlooks m :=
  ⟨fun h => ⟨h.uses hl, h.not_overlooks hl⟩, fun h => h.1.binds hg hl h.2⟩

/-- A loop is reported if the file is not skipped, no body is missing and it is a finding. -/
lemma reported_iff_mem_findings (source : String) (root : Node) :
    l.Reported source root ↔
      (Suppression.ofTree source root.focus).wholeFile = false ∧ root.Complete ∧
        l ∈ root.findings (Suppression.ofTree source root.focus) := by
  rw [Reported, Walk.exists_run_start_iff]

/-- The reported loops are the visited ones that only read their array and are not silenced. -/
lemma reported_iff (source : String) (root : Node) :
    l.Reported source root ↔
      (Suppression.ofTree source root.focus).wholeFile = false ∧ root.Complete ∧
        ofNode? l.node = some l ∧ root.Visited l.node ∧
        (Suppression.ofTree source root.focus).covers l.node.label.start.row = false ∧
        l.OnlyReads := by
  rw [reported_iff_mem_findings, Node.findings, List.mem_filter, Node.mem_visitedLoops_iff,
    and_assoc]
  refine and_congr_right fun _ => and_congr_right fun _ => and_congr_right fun hl => ?_
  rw [isReportable_eq_true_iff hl]

end CountedLoop

/-- When a loop is reported, in a tree that follows the grammar: every use of its index that is not
overlooked has to be a read.  So a reported loop has no other uses at all exactly if the overlooked
ones are reads; and what is passed over in the header of a loop is its own index, or in a type
annotation. -/
theorem reported_iff_uses_read (source : String) (root : Node) (hg : root.Grammatical)
    (l : CountedLoop) :
    (l.Reported source root ↔
      (Suppression.ofTree source root.focus).wholeFile = false ∧ root.Complete ∧
        CountedLoop.ofNode? l.node = some l ∧ root.Visited l.node ∧
        (Suppression.ofTree source root.focus).covers l.node.label.start.row = false ∧
        ∀ m, l.Uses m → ¬ l.Overlooks m → m.isPureRead l.array = true) ∧
      (l.Reported source root →
        ((∀ m, l.Uses m → m.isPureRead l.array = true) ↔
          ∀ m, l.Uses m → l.Overlooks m → m.isPureRead l.array = true)) ∧
      ∀ k m, CountedLoop.ofNode? k.node = some k → k.node ∈ root.preorder →
        m.isReference = true → m ∈ k.node.preorder → ¬ k.Contains m →
          m.text = k.index ∨ k.Hides m := by
  have hreported : l.Reported source root ↔
      (Suppression.ofTree source root.focus).wholeFile = false ∧ root.Complete ∧
        CountedLoop.ofNode? l.node = some l ∧ root.Visited l.node ∧
        (Suppression.ofTree source root.focus).covers l.node.label.start.row = false ∧
        ∀ m, l.Uses m → ¬ l.Overlooks m → m.isPureRead l.array = true := by
    rw [CountedLoop.reported_iff]
    refine and_congr_right fun _ => and_congr_right fun _ => and_congr_right fun hl =>
      and_congr_right fun hv => and_congr_right fun _ => ?_
    have hbinds : ∀ m, l.Binds m ↔ l.Uses m ∧ ¬ l.Overlooks m := fun m =>
      CountedLoop.binds_iff (hg.of_mem_preorder hv.mem_preorder) hl
    simp only [CountedLoop.OnlyReads, hbinds, and_imp]
  refine ⟨hreported, fun hrep => ⟨fun h m hm _ => h m hm, fun h m hm => ?_⟩, ?_⟩
  · by_cases hover : l.Overlooks m
    · exact h m hm hover
    · exact (hreported.mp hrep).2.2.2.2.2 m hm hover
  · intro k m hk hkn hr hm hnot
    exact (CountedLoop.text_eq_or_inAscription (hg.of_mem_preorder hkn) hk hm hr
      (fun h => hnot (Or.inl h)) fun h => hnot (Or.inr h)).imp_right fun hasc => ⟨hasc, hnot⟩

/-! ### A use that is overlooked -/

/-- The tree of the sample follows the grammar. -/
lemma grammatical_nestedTree : (Node.ofTree nestedTree).Grammatical := by
  decide +kernel

/-- A loop of `nestedTree` is found although the declaration in the header of the loop inside it has
a type that uses its index. -/
lemma exists_finding_nestedTree :
    ∃ l ∈ (Node.ofTree nestedTree).findings (Suppression.ofTree nestedSource nestedTree),
      (∀ t ∈ l.array.preorder ++ l.body.preorder, ∀ k ∈ (CountedLoop.ofNode? t).toList,
        k.index ≠ l.index) ∧
      ∃ k ∈ (CountedLoop.ofNode? l.body).toList, ∃ c ∈ (k.node.child? .initializer).toList,
        ∃ t ∈ c.preorder, t.kind = .typeAscription ∧
          ∃ m ∈ t.preorder, m.isReference = true ∧ m.text = l.index ∧
            m.isPureRead l.array = false := by
  decide +kernel

/-- The use in the type is overlooked. -/
lemma exists_overlooks_nestedTree :
    ∃ l m, CountedLoop.Reported nestedSource (Node.ofTree nestedTree) l ∧ l.Uses m ∧
      l.Overlooks m ∧ m.isPureRead l.array = false := by
  obtain ⟨l, hfound, hindex, k, hk, c, hc, t, ht, htype, m, hm, href, htext, hread⟩ :=
    exists_finding_nestedTree
  rw [Option.mem_toList] at hk hc
  have hnode : k.node = l.body := CountedLoop.node_of_ofNode? hk
  rw [← hnode] at hk
  have htk := Node.mem_preorder_of_mem_preorder_child (Node.mem_children_of_child? hc) ht
  have hmk := Node.mem_preorder_trans htk hm
  refine ⟨l, m, ?_, ⟨href, htext, Or.inr (hnode ▸ hmk), ?_⟩, ⟨k, hk, ?_, ⟨t, htk, htype, hm⟩, ?_⟩,
    hread⟩
  · rw [CountedLoop.reported_iff_mem_findings]
    exact ⟨by decide +kernel, by decide +kernel, hfound⟩
  · intro j hj hlj _
    exact hindex j.node (List.mem_append.mpr hlj) j (by rwa [Option.mem_toList])
  · rw [hnode]
    exact Or.inr (Node.self_mem_preorder l.body)
  · exact CountedLoop.not_contains_of_initializer hk hc (Node.mem_preorder_trans ht hm)

/-- A loop is reported whose index has a use that is no read. -/
theorem reported_with_unread_use :
    (Node.ofTree nestedTree).Grammatical ∧
      ∃ l m, CountedLoop.Reported nestedSource (Node.ofTree nestedTree) l ∧ l.Uses m ∧
        m.isPureRead l.array = false := by
  obtain ⟨l, m, hrep, huse, -, hread⟩ := exists_overlooks_nestedTree
  exact ⟨grammatical_nestedTree, l, m, hrep, huse, hread⟩

/-- The reported loop of `nestedTree` that has such a use overlooks it. -/
theorem reported_iff_uses_read_nestedTree :
    (Node.ofTree nestedTree).Grammatical ∧
      ∃ l : CountedLoop, l.Reported nestedSource (Node.ofTree nestedTree) ∧
        ¬ (∀ m, l.Uses m → m.isPureRead l.array = true) ∧
        ¬ ∀ m, l.Uses m → l.Overlooks m → m.isPureRead l.array = true := by
  obtain ⟨l, m, hrep, huse, -, hread⟩ := exists_overlooks_nestedTree
  have hmeets := (reported_iff_uses_read nestedSource (Node.ofTree nestedTree)
    grammatical_nestedTree l).2.1 hrep
  have hunread : ¬ ∀ m, l.Uses m → m.isPureRead l.array = true := by
    intro h
    rw [h m huse] at hread
    cases hread
  exact ⟨grammatical_nestedTree, l, hrep, hunread, fun h => hunread (hmeets.mpr h)⟩

end LoopLint
