import LoopLint.Proofs.Loop.Findings
import LoopLint.Proofs.Syntax.Spans
import Mathlib.Data.List.TakeWhile

/-!
# Where diagnostics stand

A diagnostic points at the header of its loop: its range goes from the start of the loop to the
parenthesis that closes the header, and its location is the line and the column of the start.  The
range ends are read off two different nodes and the location off a third value, so that they fit
together has to be proved.  It rests on what a parser promises of the tree of a text
(`Tree.LaidOut`): ranges are properly nested, the header of each `for` statement is closed before
its body starts, and every node knows the piece of the text that it covers.

The main result, `checkText_places_diagnostics`, says that the check of such a text succeeds and
that each diagnostic stands at its own loop: the range is not empty and ends before the body, the
location is the line and the byte column of the range's start, and no two diagnostics start at the
same byte.
-/

namespace LoopLint

/-! ### What a parser promises -/

namespace Tree

/-- The trees before the first one that is a body. -/
def header (ts : List Tree) : List Tree :=
  ts.takeWhile fun t => t.label.field != some .body

/-- The trees from the first one on that is a body. -/
def behindHeader (ts : List Tree) : List Tree :=
  ts.dropWhile fun t => t.label.field != some .body

/-- There is a body among some trees, and what closes its header stands before it. -/
def CloseHeader (ts : List Tree) : Prop :=
  behindHeader ts ≠ [] ∧ (∃ t ∈ header ts, t.label.kind = .closeParen) ∧
    ∀ t ∈ behindHeader ts, t.label.kind ≠ .closeParen

instance : DecidablePred CloseHeader := fun ts =>
  inferInstanceAs (Decidable (behindHeader ts ≠ [] ∧
    (∃ t ∈ header ts, t.label.kind = .closeParen) ∧
    ∀ t ∈ behindHeader ts, t.label.kind ≠ .closeParen))

/-- What a parser promises of the tree of a text: the ranges are properly nested, the header of each
`for` statement is closed before its body, and each node covers its piece of the text. -/
structure LaidOut (source : String) (t : Tree) : Prop where
  nested : t.Nested
  closed : ∀ u ∈ t.subtrees, u.label.kind = .forStatement → CloseHeader u.children
  read : ∀ u ∈ t.subtrees, u.label.ReadFrom source.toList

/-- Where a header is closed, its last closing parenthesis stands before the first body. -/
lemma CloseHeader.exists_split {ts : List Tree} (h : CloseHeader ts) :
    ∃ body rest paren, ts = header ts ++ body :: rest ∧
      ts.find? (fun t => t.label.field == some .body) = some body ∧ paren ∈ header ts ∧
      (ts.filter fun t => t.label.kind == .closeParen).getLast? = some paren := by
  obtain ⟨hbody, ⟨t, ht, hkind⟩, hrest⟩ := h
  have hsplit : ts = header ts ++ behindHeader ts := List.takeWhile_append_dropWhile.symm
  obtain ⟨body, rest, hbehind⟩ := List.exists_cons_of_ne_nil hbody
  -- Behind the header there is no further parenthesis, so the last one is the last of the header.
  have hfilter : (ts.filter fun t => t.label.kind == .closeParen) =
      (header ts).filter fun t => t.label.kind == .closeParen := by
    have hnone : (behindHeader ts).filter (fun t => t.label.kind == .closeParen) = [] := by
      rw [List.filter_eq_nil_iff]
      intro u hu
      simpa using hrest u hu
    conv_lhs => rw [hsplit]
    rw [List.filter_append, hnone, List.append_nil]
  have hmem : t ∈ (header ts).filter fun t => t.label.kind == .closeParen := by
    rw [List.mem_filter]
    exact ⟨ht, by simpa using hkind⟩
  obtain ⟨paren, hparen⟩ : ∃ paren,
      ((header ts).filter fun t => t.label.kind == .closeParen).getLast? = some paren := by
    rw [← Option.isSome_iff_exists, List.getLast?_isSome]
    exact List.ne_nil_of_mem hmem
  refine ⟨body, rest, paren, ?_, ?_, ?_, ?_⟩
  · rwa [← hbehind]
  · rw [List.find?_eq_head?_dropWhile_not]
    change (behindHeader ts).head? = some body
    rw [hbehind, List.head?_cons]
  · exact List.mem_of_mem_filter (List.mem_of_getLast? hparen)
  · rwa [hfilter]

/-- Of two trees in a row, the first one ends before the second one starts. -/
lemma NestedBetween.stop_le_start {start stop : Nat} {before after : List Tree} {t u : Tree}
    (h : NestedBetween start stop (before ++ u :: after)) (ht : t ∈ before) :
    t.label.range.stop ≤ u.label.range.start := by
  induction before generalizing start with
  | nil => cases ht
  | cons b before ih =>
    rw [List.cons_append, NestedBetween] at h
    obtain ⟨-, -, hrest⟩ := h
    rcases List.mem_cons.mp ht with rfl | ht
    · have hu : u ∈ subtreesOf (before ++ u :: after) := by
        rw [subtreesOf_eq, List.mem_flatMap]
        exact ⟨u, by simp, self_mem_subtrees u⟩
      exact (hrest.of_mem_subtreesOf u hu).2.1
    · exact ih hrest ht

/-- The last closing parenthesis of a `for` statement ends behind the start of the statement and
before its body. -/
lemma Nested.exists_paren {u : Tree} (hu : u.Nested) (hkind : u.label.kind = .forStatement)
    (hclosed : CloseHeader u.children) :
    ∃ body paren, u.children.find? (fun t => t.label.field == some .body) = some body ∧
      (u.children.filter fun t => t.label.kind == .closeParen).getLast? = some paren ∧
      u.label.range.start < paren.label.range.stop ∧
      paren.label.range.stop ≤ body.label.range.start := by
  obtain ⟨body, rest, paren, hsplit, hbody, hparen, hlast⟩ := hclosed.exists_split
  refine ⟨body, paren, hbody, hlast, ?_, ?_⟩
  · have hmem : paren ∈ u.children := by
      rw [hsplit]
      exact List.mem_append_left _ hparen
    obtain ⟨l, cs⟩ := u
    obtain ⟨word, others, rfl, -, hlt, hothers⟩ := hu.exists_for hkind
    rcases List.mem_cons.mp hmem with rfl | hmem
    · exact hlt
    · -- The parenthesis stands behind the keyword.
      have hsub : paren ∈ subtreesOf others := by
        rw [subtreesOf_eq, List.mem_flatMap]
        exact ⟨paren, hmem, self_mem_subtrees paren⟩
      obtain ⟨hnested, hstart, -⟩ := hothers.of_mem_subtreesOf paren hsub
      have hle := hnested.start_le_stop
      have hword : l.range.start < word.range.stop := hlt
      change l.range.start < paren.label.range.stop
      omega
  · obtain ⟨l, cs⟩ := u
    rw [Nested] at hu
    have hbetween : NestedBetween l.range.start l.range.stop cs := hu.2
    have hcs : cs = header cs ++ body :: rest := hsplit
    rw [hcs] at hbetween
    exact hbetween.stop_le_start hparen

end Tree

/-! ### Headers -/

namespace CountedLoop

variable {source : String} {t : Tree} {l : CountedLoop}

/-- The header of a loop ends with its last closing parenthesis. -/
lemma stop_headerRange {paren : Tree} (h : (l.node.focus.children.filter
    fun u => u.label.kind == .closeParen).getLast? = some paren) :
    l.headerRange.stop = paren.label.range.stop := by
  have hnodes : (l.node.children.filter fun c => c.kind == .closeParen).getLast?.map (·.focus) =
      some paren := by
    rw [← List.getLast?_map, ← h, ← Node.map_focus_children, List.filter_map]
    rfl
  obtain ⟨c, hc, rfl⟩ := Option.map_eq_some_iff.mp hnodes
  rw [headerRange, hc]
  rfl

/-- The range of a header is not empty, and it ends before the body. -/
lemma headerRange_of_laidOut (ht : t.LaidOut source) (hl : ofNode? l.node = some l)
    (hmem : l.node ∈ (Node.ofTree t).preorder) :
    l.headerRange.start < l.headerRange.stop ∧
      l.headerRange.stop ≤ l.body.label.range.start := by
  have hsub : l.node.focus ∈ t.subtrees := Node.focus_mem_subtrees hmem
  have hkind : l.node.focus.label.kind = .forStatement := kind_of_ofNode? hl
  have hnested : l.node.focus.Nested := (ht.nested.of_mem_subtrees _ hsub).1
  obtain ⟨body, paren, hbody, hlast, hstart, hstop⟩ :=
    hnested.exists_paren hkind (ht.closed _ hsub hkind)
  have hfocus : l.body.focus = body := by
    have hchild := Node.map_focus_child? l.node .body
    rw [body_of_ofNode? hl, hbody] at hchild
    exact Option.some.inj hchild
  have hlabel : l.body.label = body.label := congrArg Tree.label hfocus
  rw [stop_headerRange hlast, hlabel]
  exact ⟨hstart, hstop⟩

/-- The diagnostic `d` stands at the loop `l` of the text: its range covers the header from the
start of the loop on, without the body, and its location is the line and the column of the start.
-/
structure PlacedBy (source : String) (file : Path) (l : CountedLoop) (d : Diagnostic) : Prop where
  loop : ofNode? l.node = some l
  filename : d.filename = file
  start : d.range.start = l.node.label.range.start
  start_lt_stop : d.range.start < d.range.stop
  stop_le_body : d.range.stop ≤ l.body.label.range.start
  length : d.range.length? = some (d.range.stop - d.range.start)
  location : ∃ row lineStart, Text.OnLine source.toList d.range.start row lineStart ∧
    d.location = some ⟨1 + row, d.range.start - lineStart⟩

/-- The diagnostic about a loop stands at the loop. -/
lemma placedBy_diagnostic (ht : t.LaidOut source) (hl : ofNode? l.node = some l)
    (hmem : l.node ∈ (Node.ofTree t).preorder) (file : Path) :
    PlacedBy source file l { l.diagnostic with filename := file } := by
  obtain ⟨hlt, hbody⟩ := headerRange_of_laidOut ht hl hmem
  have hread : l.node.label.ReadFrom source.toList :=
    ht.read _ (Node.focus_mem_subtrees hmem)
  obtain ⟨row, lineStart, hline, hpoint⟩ := Text.exists_onLine hread.1
  refine ⟨hl, rfl, rfl, hlt, hbody, if_pos (Nat.le_of_lt hlt), row, lineStart, hline, ?_⟩
  have hstart : l.node.label.start = ⟨row, l.node.label.range.start - lineStart⟩ := by
    rw [hread.2.2.1, hpoint]
  change some (Location.ofPoint l.node.label.start) = _
  rw [hstart, Location.ofPoint, Nat.add_comm]
  rfl

end CountedLoop

/-! ### Diagnostics -/

/-- The diagnostics for a text with a nested tree start at different bytes. -/
theorem pairwise_start_ne_of_checkNode {t : Tree} (h : t.Nested) {source : String}
    {ds : List Diagnostic} (hds : (checkNode source (Node.ofTree t)).value = .ok ds) :
    ds.Pairwise fun a b => a.range.start ≠ b.range.start := by
  rw [checkNode_value_eq_map, Node.reportedLoops_eq] at hds
  split at hds
  · obtain rfl : [] = ds := by simpa [Except.map] using hds
    exact List.Pairwise.nil
  · split at hds
    · obtain rfl := Except.ok.inj hds
      rw [List.pairwise_map]
      refine (Node.nodup_findings _ _).imp_of_mem ?_
      intro l l' hl hl' hne
      obtain ⟨hloop, hvisited⟩ := Node.mem_visitedLoops_iff.mp (List.mem_of_mem_filter hl)
      obtain ⟨hloop', hvisited'⟩ := Node.mem_visitedLoops_iff.mp (List.mem_of_mem_filter hl')
      refine Node.start_ne_of_ne h hvisited.mem_preorder hvisited'.mem_preorder
        (CountedLoop.kind_of_ofNode? hloop) (CountedLoop.kind_of_ofNode? hloop') fun heq => hne ?_
      rw [heq, hloop'] at hloop
      exact (Option.some.inj hloop).symm
    · cases hds

/-- In a tree that a parser laid out, every `for` statement has a body. -/
lemma Tree.LaidOut.complete {source : String} {t : Tree} (ht : t.LaidOut source) :
    (Node.ofTree t).Complete := by
  intro n hn
  by_contra hlacks
  rw [Bool.not_eq_false, Node.lacksBody, Bool.and_eq_true, beq_iff_eq] at hlacks
  obtain ⟨hkind, hnone⟩ := hlacks
  have hsub : n.focus ∈ t.subtrees := Node.focus_mem_subtrees hn.mem_preorder
  obtain ⟨body, _, _, _, hbody, _⟩ := (ht.closed _ hsub hkind).exists_split
  have hchild := Node.map_focus_child? n .body
  rw [Option.isNone_iff_eq_none.mp hnone, hbody] at hchild
  cases hchild

/-- Let a parser lay out the tree of a text in a language that is known by the name of the file.
Then the check gives one diagnostic for each reported loop.  It names the file and stands at its
loop: the range starts with the loop, is not empty and ends before the body, and the location is the
line and the column of the start.  No two diagnostics start at the same byte. -/
theorem checkText_places_diagnostics (parse : Parser) (file : Path) (source : String)
    (language : Language) (t : Tree) (hlanguage : Language.ofPath? file = some language)
    (hparse : parse language source = some t) (ht : t.LaidOut source) :
    ∃ loops ds, (Node.ofTree t).reportedLoops source = .ok loops ∧
      (checkText parse file source).value = .ok ds ∧
      List.Forall₂ (CountedLoop.PlacedBy source file) loops ds ∧
      ds.Pairwise fun a b => a.range.start ≠ b.range.start := by
  obtain ⟨loops, hloops, hmem⟩ : ∃ loops, (Node.ofTree t).reportedLoops source = .ok loops ∧
      ∀ l ∈ loops, CountedLoop.ofNode? l.node = some l ∧ l.node ∈ (Node.ofTree t).preorder := by
    rw [Node.reportedLoops_eq]
    split
    · exact ⟨[], rfl, fun l hl => absurd hl List.not_mem_nil⟩
    · rw [if_pos ht.complete]
      refine ⟨_, rfl, fun l hl => ?_⟩
      obtain ⟨hloop, hvisited⟩ := Node.mem_visitedLoops_iff.mp (List.mem_of_mem_filter hl)
      exact ⟨hloop, hvisited.mem_preorder⟩
  have hcheck : (checkNode source (Node.ofTree t)).value =
      .ok (loops.map CountedLoop.diagnostic) := by
    rw [checkNode_value_eq_map, hloops]
    rfl
  refine ⟨loops, loops.map fun l => { l.diagnostic with filename := file }, hloops, ?_, ?_, ?_⟩
  · unfold checkText
    simp only [hlanguage, hparse, Logged.value_bind, hcheck, Logged.value_pure, List.map_map]
    rfl
  · rw [List.forall₂_map_right_iff, List.forall₂_same]
    intro l hl
    exact CountedLoop.placedBy_diagnostic ht (hmem l hl).1 (hmem l hl).2 file
  · have hstart := pairwise_start_ne_of_checkNode ht.nested hcheck
    rw [List.pairwise_map] at hstart ⊢
    exact hstart

/-! ### A loop over two lines -/

/-- A loop on the second line of a text, behind a character of two bytes.  Its array goes on on the
third line. -/
def brokenLineSource : String :=
  "é;\n  for (let i = 0; i < a\n.b.length; i++) x;"

/-- The nodes of `brokenLineSource`. -/
def brokenLineEntries : List PreorderEntry :=
  [ ⟨0, "program", "", true, ⟨0, 46⟩⟩,
    ⟨1, "expression_statement", "", true, ⟨0, 3⟩⟩,
    ⟨2, "identifier", "", true, ⟨0, 2⟩⟩,
    ⟨2, ";", "", false, ⟨2, 3⟩⟩,
    ⟨1, "for_statement", "", true, ⟨6, 46⟩⟩,
    ⟨2, "for", "", false, ⟨6, 9⟩⟩,
    ⟨2, "(", "", false, ⟨10, 11⟩⟩,
    ⟨2, "lexical_declaration", "initializer", true, ⟨11, 21⟩⟩,
    ⟨3, "let", "kind", false, ⟨11, 14⟩⟩,
    ⟨3, "variable_declarator", "", true, ⟨15, 20⟩⟩,
    ⟨4, "identifier", "name", true, ⟨15, 16⟩⟩,
    ⟨4, "=", "", false, ⟨17, 18⟩⟩,
    ⟨4, "number", "value", true, ⟨19, 20⟩⟩,
    ⟨3, ";", "", false, ⟨20, 21⟩⟩,
    ⟨2, "binary_expression", "condition", true, ⟨22, 37⟩⟩,
    ⟨3, "identifier", "left", true, ⟨22, 23⟩⟩,
    ⟨3, "<", "operator", false, ⟨24, 25⟩⟩,
    ⟨3, "member_expression", "right", true, ⟨26, 37⟩⟩,
    ⟨4, "member_expression", "object", true, ⟨26, 30⟩⟩,
    ⟨5, "identifier", "object", true, ⟨26, 27⟩⟩,
    ⟨5, ".", "", false, ⟨28, 29⟩⟩,
    ⟨5, "property_identifier", "property", true, ⟨29, 30⟩⟩,
    ⟨4, ".", "", false, ⟨30, 31⟩⟩,
    ⟨4, "property_identifier", "property", true, ⟨31, 37⟩⟩,
    ⟨2, ";", "condition", false, ⟨37, 38⟩⟩,
    ⟨2, "update_expression", "increment", true, ⟨39, 42⟩⟩,
    ⟨3, "identifier", "argument", true, ⟨39, 40⟩⟩,
    ⟨3, "++", "operator", false, ⟨40, 42⟩⟩,
    ⟨2, ")", "", false, ⟨42, 43⟩⟩,
    ⟨2, "expression_statement", "body", true, ⟨44, 46⟩⟩,
    ⟨3, "identifier", "", true, ⟨44, 45⟩⟩,
    ⟨3, ";", "", false, ⟨45, 46⟩⟩ ]

/-- The tree of `brokenLineSource`. -/
def brokenLineTree : Tree :=
  (Tree.read? brokenLineSource brokenLineEntries).get (by decide +kernel)

/-- The tree of the sample is laid out in its text. -/
lemma laidOut_brokenLineTree : brokenLineTree.LaidOut brokenLineSource where
  nested := by decide +kernel
  closed := by decide +kernel
  read := by decide +kernel

/-- The loop of `brokenLineSource` starts at byte 6, on the second line, two bytes behind its start.
Its diagnostic stands there, and ends before the body at byte 44. -/
theorem checkText_places_brokenLine :
    Language.ofPath? ⟨"src/a.js"⟩ = some .javaScript ∧ brokenLineTree.LaidOut brokenLineSource ∧
      ∃ loops ds, (Node.ofTree brokenLineTree).reportedLoops brokenLineSource = .ok loops ∧
        (checkText (fun _ _ => some brokenLineTree) ⟨"src/a.js"⟩ brokenLineSource).value =
          .ok ds ∧
        List.Forall₂ (CountedLoop.PlacedBy brokenLineSource ⟨"src/a.js"⟩) loops ds ∧
        (ds.Pairwise fun a b => a.range.start ≠ b.range.start) ∧
        ds.map (fun d => (d.range, d.location)) = [(⟨6, 43⟩, some ⟨2, 2⟩)] := by
  have hlanguage : Language.ofPath? ⟨"src/a.js"⟩ = some .javaScript := by decide +kernel
  obtain ⟨loops, ds, hloops, hds, hplaced, hpairwise⟩ := checkText_places_diagnostics
    (fun _ _ => some brokenLineTree) ⟨"src/a.js"⟩ brokenLineSource .javaScript brokenLineTree
    hlanguage rfl laidOut_brokenLineTree
  refine ⟨hlanguage, laidOut_brokenLineTree, loops, ds, hloops, hds, hplaced, hpairwise, ?_⟩
  have hvalue : (checkText (fun _ _ => some brokenLineTree) ⟨"src/a.js"⟩
      brokenLineSource).value.toOption.map (·.map fun d => (d.range, d.location)) =
      some [(⟨6, 43⟩, some ⟨2, 2⟩)] := by decide +kernel
  rw [hds] at hvalue
  exact Option.some.inj hvalue

end LoopLint
