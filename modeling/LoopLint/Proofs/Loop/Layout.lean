import LoopLint.Proofs.Loop.Recast
import LoopLint.Proofs.Syntax.Bare

/-!
# Layout does not matter

Whether a loop is reported does not depend on how the text is laid out: where lines are broken, how
much is indented, which comments stand between the words.  Taking the layout away is a recast, so
the check of a bare tree finds the loops of the tree, without layout and in the same order
(`Node.Plain.findings_bare`).  Two texts that are the same without layout then have the same
findings (`checkNode_bare_congr`).

Comments that are directives are of course no mere layout, and comments are not to stand in fields,
since the first child in a field is taken for the part that the field names.
-/

namespace LoopLint

variable {n : Node}

/-- The loop without layout. -/
def CountedLoop.bare (l : CountedLoop) : CountedLoop :=
  ⟨l.node.bare, l.index, l.array.bare, l.body.bare⟩

namespace Node

/-- The walk over a bare node fails if the walk over the node does. -/
lemma Plain.complete_bare (h : n.Plain) : n.bare.Complete ↔ n.Complete :=
  Recast.bare.complete_map h

/-- The findings in a bare tree are the findings in the tree, without layout. -/
theorem Plain.findings_bare (h : n.Plain) :
    n.bare.findings .nothing = (n.findings .nothing).map CountedLoop.bare :=
  Recast.bare.findings_map h

/-- Nothing is found in a comment. -/
lemma findings_of_comment (s : Suppression) (h : n.kind.isComment = true) : n.findings s = [] := by
  rw [findings, visitedLoops_of_comment h]
  rfl

end Node

/-! ### Two layouts of one tree -/

/-- Trees are the same without layout if both are comments or neither is and the rest is the same.
-/
lemma Tree.bare?_eq_bare?_iff {t t' : Tree} :
    t.bare? = t'.bare? ↔
      t.label.kind.isComment = true ∧ t'.label.kind.isComment = true ∨
        t.label.kind.isComment = false ∧ t'.label.kind.isComment = false ∧ t.bare = t'.bare := by
  cases h : t.label.kind.isComment <;> cases h' : t'.label.kind.isComment <;> simp [bare?, h, h']

/-- Trees that are the same without layout are both complete or both not, and they have the same
findings. -/
lemma findings_bare_congr {t t' : Tree} (h : t.bare? = t'.bare?) (ht : t.Plain) (ht' : t'.Plain) :
    ((Node.ofTree t).Complete ↔ (Node.ofTree t').Complete) ∧
      ((Node.ofTree t).findings .nothing).map CountedLoop.bare =
        ((Node.ofTree t').findings .nothing).map CountedLoop.bare ∧
      (((Node.ofTree t).findings .nothing).map CountedLoop.bare).Nodup := by
  have hplain : (Node.ofTree t).Plain := ⟨t, ht, Node.self_mem_preorder _⟩
  have hplain' : (Node.ofTree t').Plain := ⟨t', ht', Node.self_mem_preorder _⟩
  have hnodup := (Node.ofTree t).bare.nodup_findings .nothing
  rw [hplain.findings_bare] at hnodup
  rcases Tree.bare?_eq_bare?_iff.mp h with ⟨hc, hc'⟩ | ⟨-, -, heq⟩
  · have hnone := Node.findings_of_comment (n := Node.ofTree t) .nothing hc
    have hnone' := Node.findings_of_comment (n := Node.ofTree t') .nothing hc'
    have hcomplete := Node.complete_of_comment (n := Node.ofTree t) hc
    have hcomplete' := Node.complete_of_comment (n := Node.ofTree t') hc'
    exact ⟨iff_of_true hcomplete hcomplete', by rw [hnone, hnone'], hnodup⟩
  · have hroot : (Node.ofTree t).bare = (Node.ofTree t').bare := congrArg Node.ofTree heq
    refine ⟨?_, ?_, hnodup⟩
    · rw [← hplain.complete_bare, hroot, hplain'.complete_bare]
    · rw [← hplain.findings_bare, hroot, hplain'.findings_bare]

/-- The check of a text without directives, in terms of its walk. -/
lemma checkNode_value_of_no_directive (source : String) {t : Tree}
    (h : ∀ c ∈ t.comments, Directive.ofComment? c.text = none) :
    Walk.start.run (Suppression.ofTree source t) (Node.ofTree t).events =
        (if (Node.ofTree t).Complete then .ok ⟨[], (Node.ofTree t).findings .nothing⟩
          else .error .missingBody) ∧
      (checkNode source (Node.ofTree t)).value =
        if (Node.ofTree t).Complete then
          .ok (((Node.ofTree t).findings .nothing).map CountedLoop.diagnostic)
        else .error .missingBody := by
  have hs : Suppression.ofTree source (Node.ofTree t).focus = .nothing :=
    Suppression.ofTree_eq source h
  constructor
  · rw [Walk.run_events, Walk.after, show Suppression.ofTree source t = .nothing from hs,
      Walk.extend]
    simp [Walk.start, Candidate.resolveAll_nil_right]
  · rw [checkNode_value (by rw [hs]; rfl), hs]

/-- The layout of a text does not matter.  Take two texts whose trees are the same without layout,
comments being no parts of their parents and no directives.  The check of both fails for the same
reason, or both are checked, and the loops that are reported are the same without layout, in the
same order: they stand at the same places of one bare tree.  No two loops of a text are the same
without layout. -/
theorem checkNode_bare_congr (source source' : String) (t t' : Tree) (hbare : t.bare? = t'.bare?)
    (hplain : t.Plain) (hplain' : t'.Plain)
    (hnone : ∀ c ∈ t.comments, Directive.ofComment? c.text = none)
    (hnone' : ∀ c ∈ t'.comments, Directive.ofComment? c.text = none) :
    (∃ e, (checkNode source (Node.ofTree t)).value = .error e ∧
        (checkNode source' (Node.ofTree t')).value = .error e) ∨
      ∃ w w', Walk.start.run (Suppression.ofTree source t) (Node.ofTree t).events = .ok w ∧
        Walk.start.run (Suppression.ofTree source' t') (Node.ofTree t').events = .ok w' ∧
        (checkNode source (Node.ofTree t)).value = .ok (w.found.map CountedLoop.diagnostic) ∧
        (checkNode source' (Node.ofTree t')).value = .ok (w'.found.map CountedLoop.diagnostic) ∧
        w.found.map CountedLoop.bare = w'.found.map CountedLoop.bare ∧
        (w.found.map CountedLoop.bare).Nodup := by
  obtain ⟨hcomplete, hfound, hnodup⟩ := findings_bare_congr hbare hplain hplain'
  obtain ⟨hrun, hvalue⟩ := checkNode_value_of_no_directive source hnone
  obtain ⟨hrun', hvalue'⟩ := checkNode_value_of_no_directive source' hnone'
  by_cases hc : (Node.ofTree t).Complete
  · have hc' := hcomplete.mp hc
    rw [if_pos hc] at hrun hvalue
    rw [if_pos hc'] at hrun' hvalue'
    exact Or.inr ⟨_, _, hrun, hrun', hvalue, hvalue', hfound, hnodup⟩
  · have hc' : ¬ (Node.ofTree t').Complete := fun h => hc (hcomplete.mpr h)
    rw [if_neg hc] at hvalue
    rw [if_neg hc'] at hvalue'
    exact Or.inl ⟨_, hvalue, hvalue'⟩

/-- A counted loop on one line. -/
def tightSource : String :=
  "for (let i = 0; i < a.length; i++) a[i];"

/-- The same loop with comments, on three lines. -/
def spacedSource : String :=
  "for (let i = 0; i < /* all */ a.length; i++)\n  // first\n  a[i];"

/-- The nodes of a text that is laid out like `tightSource` but for comments in the header and
before the body: what follows the first is moved by `k` bytes, and the body by `j` bytes. -/
def layoutEntries (k j : Nat) (inHeader beforeBody : List PreorderEntry) : List PreorderEntry :=
  [ ⟨0, "program", "", true, ⟨0, j + 40⟩⟩,
    ⟨1, "for_statement", "", true, ⟨0, j + 40⟩⟩,
    ⟨2, "for", "", false, ⟨0, 3⟩⟩,
    ⟨2, "(", "", false, ⟨4, 5⟩⟩,
    ⟨2, "lexical_declaration", "initializer", true, ⟨5, 15⟩⟩,
    ⟨3, "let", "kind", false, ⟨5, 8⟩⟩,
    ⟨3, "variable_declarator", "", true, ⟨9, 14⟩⟩,
    ⟨4, "identifier", "name", true, ⟨9, 10⟩⟩,
    ⟨4, "=", "", false, ⟨11, 12⟩⟩,
    ⟨4, "number", "value", true, ⟨13, 14⟩⟩,
    ⟨3, ";", "", false, ⟨14, 15⟩⟩,
    ⟨2, "binary_expression", "condition", true, ⟨16, k + 28⟩⟩,
    ⟨3, "identifier", "left", true, ⟨16, 17⟩⟩,
    ⟨3, "<", "operator", false, ⟨18, 19⟩⟩ ] ++ inHeader ++
  [ ⟨3, "member_expression", "right", true, ⟨k + 20, k + 28⟩⟩,
    ⟨4, "identifier", "object", true, ⟨k + 20, k + 21⟩⟩,
    ⟨4, ".", "", false, ⟨k + 21, k + 22⟩⟩,
    ⟨4, "property_identifier", "property", true, ⟨k + 22, k + 28⟩⟩,
    ⟨2, ";", "condition", false, ⟨k + 28, k + 29⟩⟩,
    ⟨2, "update_expression", "increment", true, ⟨k + 30, k + 33⟩⟩,
    ⟨3, "identifier", "argument", true, ⟨k + 30, k + 31⟩⟩,
    ⟨3, "++", "operator", false, ⟨k + 31, k + 33⟩⟩,
    ⟨2, ")", "", false, ⟨k + 33, k + 34⟩⟩ ] ++ beforeBody ++
  [ ⟨2, "expression_statement", "body", true, ⟨j + 35, j + 40⟩⟩,
    ⟨3, "subscript_expression", "", true, ⟨j + 35, j + 39⟩⟩,
    ⟨4, "identifier", "object", true, ⟨j + 35, j + 36⟩⟩,
    ⟨4, "[", "", false, ⟨j + 36, j + 37⟩⟩,
    ⟨4, "identifier", "index", true, ⟨j + 37, j + 38⟩⟩,
    ⟨4, "]", "", false, ⟨j + 38, j + 39⟩⟩,
    ⟨3, ";", "", false, ⟨j + 39, j + 40⟩⟩ ]

/-- The tree of `tightSource`. -/
def tightTree : Tree :=
  (Tree.read? tightSource (layoutEntries 0 0 [] [])).get (by decide +kernel)

/-- The tree of `spacedSource`. -/
def spacedTree : Tree :=
  (Tree.read? spacedSource (layoutEntries 10 23 [⟨3, "comment", "", true, ⟨20, 29⟩⟩]
    [⟨2, "comment", "", true, ⟨47, 55⟩⟩])).get (by decide +kernel)

/-- Two layouts of a loop that is reported. -/
theorem checkNode_bare_congr_spacedTree :
    tightTree.bare? = spacedTree.bare? ∧ tightTree.Plain ∧ spacedTree.Plain ∧
      (∀ c ∈ tightTree.comments, Directive.ofComment? c.text = none) ∧
      (∀ c ∈ spacedTree.comments, Directive.ofComment? c.text = none) ∧
      spacedTree.comments.length = 2 ∧ ((Node.ofTree spacedTree).findings .nothing).length = 1 ∧
      ((∃ e, (checkNode tightSource (Node.ofTree tightTree)).value = .error e ∧
          (checkNode spacedSource (Node.ofTree spacedTree)).value = .error e) ∨
        ∃ w w',
          Walk.start.run (Suppression.ofTree tightSource tightTree)
            (Node.ofTree tightTree).events = .ok w ∧
          Walk.start.run (Suppression.ofTree spacedSource spacedTree)
            (Node.ofTree spacedTree).events = .ok w' ∧
          (checkNode tightSource (Node.ofTree tightTree)).value =
            .ok (w.found.map CountedLoop.diagnostic) ∧
          (checkNode spacedSource (Node.ofTree spacedTree)).value =
            .ok (w'.found.map CountedLoop.diagnostic) ∧
          w.found.map CountedLoop.bare = w'.found.map CountedLoop.bare ∧
          (w.found.map CountedLoop.bare).Nodup) :=
  have hbare : tightTree.bare? = spacedTree.bare? := by decide +kernel
  have hplain : tightTree.Plain := by decide +kernel
  have hplain' : spacedTree.Plain := by decide +kernel
  have hnone : ∀ c ∈ tightTree.comments, Directive.ofComment? c.text = none := by decide +kernel
  have hnone' : ∀ c ∈ spacedTree.comments, Directive.ofComment? c.text = none := by decide +kernel
  ⟨hbare, hplain, hplain', hnone, hnone', by decide +kernel, by decide +kernel,
    checkNode_bare_congr tightSource spacedSource tightTree spacedTree hbare hplain hplain' hnone
      hnone'⟩

end LoopLint
