import LoopLint.Check
import LoopLint.Proofs.Loop.Run

/-!
# What is reported

The checker's answer, said without events and without a stack.  It visits nodes in a fixed order
(`Node.visitOrder`); of the counted loops among them it reports, in this order, those whose index is
only used to read the array and whose row is not silenced (`checkNode_reports_visited_loops`).  It
fails only if a visited `for` statement has no body.
-/

namespace LoopLint

namespace Suppression

/-- A file is skipped as a whole if one of its comments says so. -/
lemma wholeFile_eq_true_iff (source : String) (t : Tree) :
    (ofTree source t).wholeFile = true ↔
      ∃ c ∈ t.comments, Directive.ofComment? c.text = some .ignoreFile := by
  simp [ofTree]

/-- A file is not skipped if no comment asks for it. -/
lemma wholeFile_eq_false {source : String} {t : Tree}
    (h : ∀ c ∈ t.comments, Directive.ofComment? c.text ≠ some .ignoreFile) :
    (ofTree source t).wholeFile = false := by
  cases hw : (ofTree source t).wholeFile with
  | false => rfl
  | true =>
    obtain ⟨c, hc, hd⟩ := (wholeFile_eq_true_iff source t).mp hw
    exact absurd hd (h c hc)

end Suppression

/-- The answer of the checker where the file is not skipped as a whole. -/
lemma checkNode_value {source : String} {root : Node}
    (h : (Suppression.ofTree source root.focus).wholeFile = false) :
    (checkNode source root).value =
      if root.Complete then
        .ok ((root.findings (Suppression.ofTree source root.focus)).map CountedLoop.diagnostic)
      else .error .missingBody := by
  simp only [checkNode, h, Bool.false_eq_true, if_false]
  rw [Walk.run_events, Walk.after]
  split <;> rfl

/-- A file that is skipped has no findings. -/
lemma checkNode_value_of_wholeFile {source : String} {root : Node}
    (h : (Suppression.ofTree source root.focus).wholeFile = true) :
    (checkNode source root).value = .ok [] := by
  simp [checkNode, h]

/-- The loops that the check reports, in the order of its diagnostics, or why it fails. -/
def Node.reportedLoops (source : String) (root : Node) : Except WalkError (List CountedLoop) :=
  if (Suppression.ofTree source root.focus).wholeFile then .ok []
  else (Walk.start.run (Suppression.ofTree source root.focus) root.events).map (·.found)

/-- The loops that are reported, with the reasons to report none. -/
lemma Node.reportedLoops_eq (source : String) (root : Node) :
    root.reportedLoops source =
      if (Suppression.ofTree source root.focus).wholeFile then .ok []
      else if root.Complete then .ok (root.findings (Suppression.ofTree source root.focus))
      else .error .missingBody := by
  rw [reportedLoops, Walk.run_events, Walk.after]
  split
  · rfl
  · split <;> rfl

/-- The check gives one diagnostic for each reported loop. -/
lemma checkNode_value_eq_map (source : String) (root : Node) :
    (checkNode source root).value =
      (root.reportedLoops source).map (·.map CountedLoop.diagnostic) := by
  rw [Node.reportedLoops_eq]
  cases h : (Suppression.ofTree source root.focus).wholeFile with
  | true =>
    rw [checkNode_value_of_wholeFile h]
    rfl
  | false =>
    rw [checkNode_value h]
    split <;> rfl

/-- A loop that is reported only reads its array and is not silenced, and every such loop that is
visited is reported. -/
lemma CountedLoop.isReportable_eq_true_iff {s : Suppression} {l : CountedLoop}
    (hl : CountedLoop.ofNode? l.node = some l) :
    l.isReportable s = true ↔ s.covers l.node.label.start.row = false ∧ l.OnlyReads := by
  rw [isReportable, Bool.and_eq_true, Bool.not_eq_true', onlyReads_eq_true_iff hl, and_comm]

open scoped Classical in
/-- The checker reports, in the order of the visit, one diagnostic for each visited counted loop
that is not silenced and whose bound uses are all reads of its array.  The order holds every visited
node once. -/
theorem checkNode_reports_visited_loops (source : String) (root : Node)
    (hbody : ∀ m ∈ root.preorder, m.lacksBody = false)
    (hfile : ∀ c ∈ root.focus.comments, Directive.ofComment? c.text ≠ some .ignoreFile) :
    (∀ m, m ∈ root.visitOrder ↔ root.Visited m) ∧ root.visitOrder.Nodup ∧
      (checkNode source root).value =
        .ok (((root.visitOrder.filterMap CountedLoop.ofNode?).filter fun l =>
          (Suppression.ofTree source root.focus).covers l.node.label.start.row = false ∧
            l.OnlyReads).map CountedLoop.diagnostic) := by
  refine ⟨fun m => Node.mem_visitOrder_iff, root.nodup_visitOrder, ?_⟩
  have hcomplete : root.Complete := fun m hm => hbody m hm.mem_preorder
  rw [checkNode_value (Suppression.wholeFile_eq_false hfile), if_pos hcomplete, Node.findings]
  have hfilter : root.visitedLoops.filter
        (CountedLoop.isReportable (Suppression.ofTree source root.focus)) =
      root.visitedLoops.filter fun l =>
        (Suppression.ofTree source root.focus).covers l.node.label.start.row = false ∧
          l.OnlyReads := by
    refine List.filter_congr fun l hl => ?_
    have hiff := CountedLoop.isReportable_eq_true_iff
      (s := Suppression.ofTree source root.focus) (Node.mem_visitedLoops_iff.mp hl).1
    rw [Bool.eq_iff_iff, hiff, decide_eq_true_iff]
  rw [hfilter]
  rfl

/-! ### Two loops, one in the other -/

/-- A counted loop in another one.  The declaration of `j` has a type, which speaks of `i`. -/
def nestedSource : String :=
  "for (let i = 0; i < a.length; i++) for (let j: typeof i = 0; j < b.length; j++) a[i];"

/-- What is known of the node of `nestedSource` at the given bytes. -/
def nestedLabel (named : Bool) (kind : Kind) (field : Option Field) (start stop : Nat) : Label where
  kind := kind
  field := field
  named := named
  range := ⟨start, stop⟩
  start := Text.pointAt nestedSource.toList start
  stop := Text.pointAt nestedSource.toList stop
  text := String.ofList (Text.slice nestedSource.toList ⟨start, stop⟩)

/-- A keyword or a sign in `nestedSource`. -/
def nestedWord (kind : Kind) (field : Option Field) (start stop : Nat) : Tree :=
  .node (nestedLabel false kind field start stop) []

/-- Any other node of `nestedSource`. -/
def nestedNode (kind : Kind) (field : Option Field) (start stop : Nat) (children : List Tree) :
    Tree :=
  .node (nestedLabel true kind field start stop) children

/-- A loop of `nestedSource`, from byte `k` on.  Its index may have a type, which takes up `d`
bytes. -/
def nestedLoop (field : Option Field) (k d : Nat) (type : List Tree) (body : Tree) : Tree :=
  nestedNode .forStatement field k 85
    [ nestedWord (.other "for") none k (k + 3),
      nestedWord (.other "(") none (k + 4) (k + 5),
      nestedNode .lexicalDeclaration (some .initializer) (k + 5) (k + d + 15)
        [ nestedWord (.other "let") (some (.other "kind")) (k + 5) (k + 8),
          nestedNode .variableDeclarator none (k + 9) (k + d + 14)
            ([ nestedNode .identifier (some .name) (k + 9) (k + 10) [] ] ++ type ++
              [ nestedWord (.other "=") none (k + d + 11) (k + d + 12),
                nestedNode .number (some .value) (k + d + 13) (k + d + 14) [] ]),
          nestedWord .semicolon none (k + d + 14) (k + d + 15) ],
      nestedNode .binary (some .condition) (k + d + 16) (k + d + 28)
        [ nestedNode .identifier (some .left) (k + d + 16) (k + d + 17) [],
          nestedWord .less (some .operator) (k + d + 18) (k + d + 19),
          nestedNode .member (some .right) (k + d + 20) (k + d + 28)
            [ nestedNode .identifier (some .object) (k + d + 20) (k + d + 21) [],
              nestedWord (.other ".") none (k + d + 21) (k + d + 22),
              nestedNode .propertyIdentifier (some .property) (k + d + 22) (k + d + 28) [] ] ],
      nestedWord .semicolon (some .condition) (k + d + 28) (k + d + 29),
      nestedNode .update (some .increment) (k + d + 30) (k + d + 33)
        [ nestedNode .identifier (some (.other "argument")) (k + d + 30) (k + d + 31) [],
          nestedWord .plusPlus (some .operator) (k + d + 31) (k + d + 33) ],
      nestedWord .closeParen none (k + d + 33) (k + d + 34),
      body ]

/-- The tree of `nestedSource`. -/
def nestedTree : Tree :=
  nestedNode (.other "program") none 0 85
    [ nestedLoop none 0 0 []
        (nestedLoop (some .body) 35 10
          [ nestedNode (.other "type_annotation") (some (.other "type")) 45 55
              [ nestedWord (.other ":") none 45 46,
                nestedNode (.other "type_query") none 47 55
                  [ nestedWord (.other "typeof") none 47 53,
                    nestedNode .identifier none 54 55 [] ] ] ]
          (nestedNode .expressionStatement (some .body) 80 85
            [ nestedNode .subscript none 80 84
                [ nestedNode .identifier (some .object) 80 81 [],
                  nestedWord (.other "[") none 81 82,
                  nestedNode .identifier (some .index) 82 83 [],
                  nestedWord (.other "]") none 83 84 ],
              nestedWord .semicolon none 84 85 ])) ]

open scoped Classical in
/-- The report of `nestedTree`, where both loops are visited. -/
theorem checkNode_reports_nested_loops :
    (∀ m ∈ (Node.ofTree nestedTree).preorder, m.lacksBody = false) ∧
      (∀ c ∈ nestedTree.comments, Directive.ofComment? c.text ≠ some .ignoreFile) ∧
      (∀ m, m ∈ (Node.ofTree nestedTree).visitOrder ↔ (Node.ofTree nestedTree).Visited m) ∧
      (Node.ofTree nestedTree).visitOrder.Nodup ∧
      (checkNode nestedSource (Node.ofTree nestedTree)).value =
        .ok ((((Node.ofTree nestedTree).visitOrder.filterMap CountedLoop.ofNode?).filter fun l =>
          (Suppression.ofTree nestedSource nestedTree).covers l.node.label.start.row = false ∧
            l.OnlyReads).map CountedLoop.diagnostic) :=
  have hbody : ∀ m ∈ (Node.ofTree nestedTree).preorder, m.lacksBody = false := by decide +kernel
  have hfile : ∀ c ∈ nestedTree.comments, Directive.ofComment? c.text ≠ some .ignoreFile := by
    decide +kernel
  ⟨hbody, hfile,
    checkNode_reports_visited_loops nestedSource (Node.ofTree nestedTree) hbody hfile⟩

end LoopLint
