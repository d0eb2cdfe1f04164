import LoopLint.Proofs.Loop.Independence
import LoopLint.Proofs.Suppression.Filter
import LoopLint.Proofs.Syntax.Recast

/-!
# What the check finds in a recast tree

Every test that the check makes gives the same answer on a node and on the recast node, so the check
of a recast tree finds the loops of the tree, recast and in the same order (`Recast.findings_map`).
The tests are taken one after the other, from those that look at a single node up to the recognition
of a header; from there the induction is over the visit.

Children that are not kept are comments, and a comment adds nothing to what a walk visits, uses or
finds.
-/

namespace LoopLint

variable {n m c p r array : Node} {l : CountedLoop} {index : String}

/-! ### Comments are passed by -/

namespace Node

/-- Nothing is visited below a comment. -/
lemma parts_of_comment (h : n.kind.isComment = true) : n.parts = [] := by
  refine List.eq_nil_iff_forall_not_mem.mpr fun c hc => ?_
  rw [isComment_eq_false_of_mem_parts hc] at h
  cases h

/-- A comment is of no kind but those of comments. -/
lemma kind_ne_of_comment {k : Kind} (h : n.kind.isComment = true) (hk : k.isComment = false) :
    n.kind ≠ k := by
  rintro rfl
  rw [h] at hk
  cases hk

/-- A comment is no counted loop. -/
lemma ofNode?_of_comment (h : n.kind.isComment = true) : CountedLoop.ofNode? n = none := by
  rw [CountedLoop.ofNode?, if_neg (kind_ne_of_comment h rfl)]

/-- No loops are visited in a comment. -/
lemma visitedLoops_of_comment (h : n.kind.isComment = true) : n.visitedLoops = [] := by
  rw [visitedLoops_eq, parts_of_comment h, ofNode?_of_comment h]
  rfl

/-- A comment uses no name. -/
lemma isReference_of_comment (h : n.kind.isComment = true) : n.isReference = false := by
  cases hr : n.isReference with
  | false => rfl
  | true =>
    unfold isReference at hr
    split at hr <;> simp_all [Kind.isComment]

/-- A comment holds no uses of names. -/
lemma freeUses_of_comment (h : n.kind.isComment = true) : n.freeUses = [] := by
  rw [freeUses_eq, ofNode?_of_comment h, parts_of_comment h, isReference_of_comment h]
  rfl

/-- In a comment no loop lacks its body. -/
lemma complete_of_comment (h : n.kind.isComment = true) : n.Complete := by
  have hfor : (n.kind == .forStatement) = false :=
    beq_eq_false_iff_ne.mpr (kind_ne_of_comment h rfl)
  rw [complete_iff, parts_of_comment h, lacksBody, hfor]
  exact ⟨rfl, fun _ hc => by cases hc⟩

/-- A use of a name is a node whose text counts. -/
lemma isSpelled_of_isReference (h : n.isReference = true) : n.kind.isSpelled = true := by
  unfold isReference at h
  split at h <;> simp_all [Kind.isSpelled]

/-- A use of a name is no comment. -/
lemma isComment_of_isReference (h : n.isReference = true) : n.kind.isComment = false := by
  cases hk : n.kind.isComment with
  | false => rfl
  | true =>
    rw [isReference_of_comment hk] at h
    cases h

end Node

namespace Recast

variable (φ : Recast)

/-! ### Tests of single nodes -/

/-- A number that the check looks for stays the same number. -/
lemma isNumber_map (h : φ.Good n) (value : String) (hv : value ∈ ["0", "1", "length"]) :
    (φ.map n).isNumber value = n.isNumber value := by
  have hfixed := φ.fixed value hv
  have htest := φ.kind_and_text_map (k := .number) rfl h hfixed.1
  rwa [hfixed.2] at htest

/-- The property `length` stays what it is, and nothing else becomes it. -/
lemma isLengthName_map (h : φ.Good n) :
    CountedLoop.isLengthName (φ.map n) = CountedLoop.isLengthName n := by
  have hfixed := φ.fixed "length" (by simp)
  have htest := φ.kind_and_text_map (k := .propertyIdentifier) rfl h hfixed.1
  rwa [hfixed.2] at htest

/-- A node names the index before the recast exactly if it names the renamed index after it. -/
lemma isIdentifier_map (h : φ.Good n) (hi : index ∈ φ.words) :
    (φ.map n).isIdentifier (φ.rename index) = n.isIdentifier index :=
  φ.kind_and_text_map (k := .identifier) rfl h hi

/-- Parts are asked for their kind, for a number or for a name. -/
lemma childIs_kind_map (h : φ.Good n) (f : Field) (k : Kind) :
    (φ.map n).childIs f (fun c => c.kind == k) = n.childIs f (fun c => c.kind == k) :=
  φ.childIs_map h f fun c _ => by rw [φ.kind_map]

/-- A part of a node is a number that the check looks for as it was before. -/
lemma childIs_isNumber_map (h : φ.Good n) (f : Field) (value : String)
    (hv : value ∈ ["0", "1", "length"]) :
    (φ.map n).childIs f (·.isNumber value) = n.childIs f (·.isNumber value) :=
  φ.childIs_map h f fun _ hc => φ.isNumber_map (φ.good_of_child? h hc) value hv

/-- A part of a node names the renamed index if it named the index before. -/
lemma childIs_isIdentifier_map (h : φ.Good n) (f : Field) (hi : index ∈ φ.words) :
    (φ.map n).childIs f (·.isIdentifier (φ.rename index)) =
      n.childIs f (·.isIdentifier index) :=
  φ.childIs_map h f fun _ hc => φ.isIdentifier_map (φ.good_of_child? h hc) hi

/-- Nodes below which nothing is visited stay so. -/
@[simp] lemma isAtom_map (n : Node) : (φ.map n).isAtom = n.isAtom := by
  rw [Node.isAtom, φ.kind_map, Node.isAtom]

/-! ### How an index is used -/

/-- A node that is kept is written to exactly if it was before. -/
lemma isWriteTarget_map (h : φ.Good n) (hk : φ.keeps n = true) :
    (φ.map n).isWriteTarget = n.isWriteTarget := by
  induction n using Node.parentInduction with
  | step n ih =>
    have hparent := φ.parent?_map hk
    rw [Node.isWriteTarget, Node.isWriteTarget]
    cases hp : n.parent? with
    | none =>
      rw [hp] at hparent
      split
      · rfl
      · rename_i hq
        rw [hparent] at hq
        cases hq
    | some p =>
      rw [hp] at hparent
      have hmem := Node.mem_children_of_parent? hp
      have hgood := φ.good_parent h hmem
      split
      · rename_i hq
        rw [hparent] at hq
        cases hq
      · rename_i q hq
        rw [hparent] at hq
        cases hq
        have hdelete := φ.hasChild_map (k := .deleteWord) rfl p
        simp only [φ.kind_map, φ.isPartOf_map hgood hmem hk, hdelete]
        -- From parentheses the test goes on.
        split <;> try rfl
        rename_i hkind
        exact ih p hmem hgood (φ.keeps_of_not_comment (by rw [hkind]; rfl))

/-- What stands inside parentheses is good if they are. -/
lemma good_unwrap (h : φ.Good n) : φ.Good n.unwrap :=
  φ.good_of_mem_preorder h n.via_unwrap.1

/-- A use that is kept is a read of an element of the array exactly if it was before. -/
lemma isPureRead_map (h : φ.Good n) (hk : φ.keeps n = true) (harray : φ.Good array) :
    (φ.map n).isPureRead (φ.map array) = n.isPureRead array := by
  rw [Node.isPureRead, φ.parent?_map hk, Node.isPureRead]
  cases hp : n.parent? with
  | none => rfl
  | some access =>
    have hmem := Node.mem_children_of_parent? hp
    have hgood := φ.good_parent h hmem
    simp only [Option.map_some, φ.kind_map]
    by_cases hkind : access.kind = .subscript
    · have hwrite := φ.isWriteTarget_map hgood (φ.keeps_of_not_comment (by rw [hkind]; rfl))
      have hobject : (φ.map access).childIs .object
            (fun object => object.unwrap.tokens == (φ.map array).unwrap.tokens) =
          access.childIs .object (fun object => object.unwrap.tokens == array.unwrap.tokens) := by
        refine φ.childIs_map hgood .object fun object hobject => ?_
        have hobjectGood := φ.good_unwrap (φ.good_of_child? hgood hobject)
        rw [φ.unwrap_map, φ.unwrap_map, Bool.eq_iff_iff, beq_iff_eq, beq_iff_eq]
        exact φ.tokens_map_eq_iff hobjectGood (φ.good_unwrap harray)
      rw [φ.isPartOf_map hgood hmem hk, hwrite, hobject]
    · simp [beq_eq_false_iff_ne.mpr hkind]

/-- A node uses a name exactly if it did before. -/
lemma isReference_map (h : φ.Good n) : (φ.map n).isReference = n.isReference := by
  rw [Node.isReference, φ.kind_map, Node.isReference]
  split <;> try rfl
  rename_i hkind
  have hk : φ.keeps n = true := φ.keeps_of_not_comment (by rw [hkind]; rfl)
  rw [Node.isEntryKey, φ.parent?_map hk, Node.isEntryKey]
  cases hp : n.parent? with
  | none => rfl
  | some p =>
    have hmem := Node.mem_children_of_parent? hp
    simp [φ.isPartOf_map (φ.good_parent h hmem) hmem hk]

/-! ### Recognising a header -/

/-- The loop recast. -/
def loop (l : CountedLoop) : CountedLoop :=
  ⟨φ.map l.node, φ.rename l.index, φ.map l.array, φ.map l.body⟩

/-- The clause of a header is recast to the clause of the header that is recast. -/
lemma clause?_map (h : φ.Good n) (f : Field) :
    CountedLoop.clause? (φ.map n) f = (CountedLoop.clause? n f).map φ.map := by
  rw [CountedLoop.clause?, φ.child?_map h, CountedLoop.clause?]
  cases n.child? f with
  | none => rfl
  | some c =>
    simp only [Option.map_some, Option.bind_some, φ.kind_map]
    split
    · rfl
    · rfl
    · exact φ.head?_namedChildren_map c
    · rfl

/-- The clauses of a good header are good. -/
lemma good_of_clause? (h : φ.Good n) {f : Field} (hc : CountedLoop.clause? n f = some c) :
    φ.Good c := by
  obtain ⟨d, hd, hdc⟩ := CountedLoop.via_of_clause? hc (Node.Via.refl _ c)
  exact φ.good_of_mem_preorder (φ.good_of_child? h hd) hdc.1

/-- The index of a header is spelled by an identifier of the declaration. -/
lemma exists_of_zeroIndex? (h : CountedLoop.zeroIndex? n = some index) :
    ∃ m ∈ n.preorder, m.kind = .identifier ∧ m.text = index := by
  unfold CountedLoop.zeroIndex? at h
  split at h
  · split at h
    · rename_i declarator hrow
      split at h
      · obtain ⟨name, hname, htext⟩ := Option.map_eq_some_iff.mp h
        obtain ⟨hname, hkind⟩ := Option.filter_eq_some_iff.mp hname
        have hmem : declarator ∈ n.namedChildren.filter (·.kind == .variableDeclarator) := by
          rw [hrow]
          exact List.mem_singleton_self _
        have hchild := (List.mem_filter.mp (List.mem_filter.mp hmem).1).1
        have hnameChild := Node.mem_children_of_child? hname
        refine ⟨name, ?_, by simpa using hkind, htext⟩
        exact Node.mem_preorder_of_mem_preorder_child hchild
          (Node.mem_preorder_of_mem_children hnameChild)
      · cases h
    · cases h
  · cases h

/-- The index of a good declaration is a word that the recast can rename. -/
lemma index_mem_words (h : φ.Good n) (hi : CountedLoop.zeroIndex? n = some index) :
    index ∈ φ.words := by
  obtain ⟨m, hm, hkind, htext⟩ := exists_of_zeroIndex? hi
  have hmem := φ.text_mem_words (φ.good_of_mem_preorder h hm) (by rw [hkind]; rfl)
  rwa [htext] at hmem

/-- The index that a clause sets to zero is renamed. -/
lemma zeroIndex?_map (h : φ.Good n) :
    CountedLoop.zeroIndex? (φ.map n) = (CountedLoop.zeroIndex? n).map φ.rename := by
  have hrow : (φ.map n).namedChildren.filter (fun c => c.kind == .variableDeclarator) =
      (n.namedChildren.filter (fun c => c.kind == .variableDeclarator)).map φ.map := by
    rw [φ.namedChildren_map, List.filter_map]
    simp [Function.comp_def]
  rw [CountedLoop.zeroIndex?, φ.kind_map, hrow, CountedLoop.zeroIndex?]
  split
  · cases hd : n.namedChildren.filter (fun c => c.kind == .variableDeclarator) with
    | nil => rfl
    | cons d ds =>
      cases ds with
      | cons e ds => rfl
      | nil =>
        have hmem : d ∈ n.namedChildren.filter (fun c => c.kind == .variableDeclarator) := by
          simp [hd]
        have hgood := φ.good_child h (List.mem_filter.mp (List.mem_filter.mp hmem).1).1
        have hzero := φ.childIs_isNumber_map hgood .value "0" (by simp)
        have hname : (((d.child? .name).map φ.map).filter (fun c => c.kind == .identifier)).map
            Node.text =
              (((d.child? .name).filter (fun c => c.kind == .identifier)).map Node.text).map
                φ.rename := by
          cases hc : d.child? .name with
          | none => rfl
          | some c =>
            by_cases hk : c.kind = .identifier
            · simp [Option.filter, hk, φ.text_map (φ.good_of_child? hgood hc) (by rw [hk]; rfl)]
            · simp [Option.filter, hk]
        simp only [List.map_cons, List.map_nil, hzero, φ.child?_map hgood, hname]
        split <;> rfl
  · rfl

/-- The sum of the index and one stays such a sum. -/
lemma isSuccessor_map (h : φ.Good n) (hi : index ∈ φ.words) :
    CountedLoop.isSuccessor (φ.map n) (φ.rename index) = CountedLoop.isSuccessor n index := by
  have hone (f : Field) := φ.childIs_isNumber_map h f "1" (by simp)
  simp only [CountedLoop.isSuccessor, φ.kind_map, φ.childIs_kind_map h,
    φ.childIs_isIdentifier_map h _ hi, hone]

/-- An increment of the index stays an increment of the renamed index. -/
lemma isIncrement_map (h : φ.Good n) (hi : index ∈ φ.words) :
    CountedLoop.isIncrement (φ.map n) (φ.rename index) = CountedLoop.isIncrement n index := by
  have hone (f : Field) := φ.childIs_isNumber_map h f "1" (by simp)
  have hsucc : (φ.map n).childIs .right (CountedLoop.isSuccessor · (φ.rename index)) =
      n.childIs .right (CountedLoop.isSuccessor · index) :=
    φ.childIs_map h .right fun _ hc => φ.isSuccessor_map (φ.good_of_child? h hc) hi
  have hhead : (φ.map n).namedChildren.head?.any (·.isIdentifier (φ.rename index)) =
      n.namedChildren.head?.any (·.isIdentifier index) := by
    rw [φ.head?_namedChildren_map, Option.any_map]
    cases hc : n.namedChildren.head? with
    | none => rfl
    | some c =>
      have hmem := (List.mem_filter.mp (List.mem_of_mem_head? hc)).1
      exact φ.isIdentifier_map (φ.good_child h hmem) hi
  have hplus := φ.hasChild_map (k := .plusPlus) rfl n
  simp only [CountedLoop.isIncrement, φ.kind_map, hplus, hhead, hsucc, φ.childIs_kind_map h,
    φ.childIs_isIdentifier_map h _ hi, hone]

/-- The array that bounds the index is recast. -/
lemma bound?_map (h : φ.Good n) (hi : index ∈ φ.words) :
    CountedLoop.bound? (φ.map n) (φ.rename index) =
      (CountedLoop.bound? n index).map φ.map := by
  rw [CountedLoop.bound?, φ.kind_map, φ.childIs_kind_map h, φ.childIs_isIdentifier_map h _ hi,
    φ.child?_map h, CountedLoop.bound?]
  split
  · cases hlimit : n.child? .right with
    | none => rfl
    | some limit =>
      have hgood := φ.good_of_child? h hlimit
      have hlen := φ.childIs_map hgood .property fun c hc =>
        φ.isLengthName_map (φ.good_of_child? hgood hc)
      simp only [Option.map_some, Option.bind_some, φ.kind_map, hlen, φ.child?_map hgood]
      split
      · simp [Function.comp_def, φ.unwrap_map]
      · rfl
  · rfl

/-- A recast loop is recognised. -/
lemma ofNode?_map (h : φ.Good n) :
    CountedLoop.ofNode? (φ.map n) = (CountedLoop.ofNode? n).map φ.loop := by
  rw [CountedLoop.ofNode?, φ.kind_map, φ.child?_map h, φ.child?_map h, φ.clause?_map h,
    φ.clause?_map h, CountedLoop.ofNode?]
  split
  · -- The parts of the header one after the other; where one is missing, both sides are `none`.
    cases hi : n.child? .initializer with
    | none => rfl
    | some initializer =>
    cases hc : CountedLoop.clause? n .condition with
    | none => rfl
    | some condition =>
    cases hs : CountedLoop.clause? n .increment with
    | none => rfl
    | some step =>
    have hgood := φ.good_of_child? h hi
    have hindex := φ.zeroIndex?_map hgood
    simp only [Option.map_some, Option.bind_eq_bind, Option.bind_some, hindex]
    cases hzero : CountedLoop.zeroIndex? initializer with
    | none => rfl
    | some index =>
    have hword := φ.index_mem_words hgood hzero
    have hstep := φ.isIncrement_map (φ.good_of_clause? h hs) hword
    have hbound := φ.bound?_map (φ.good_of_clause? h hc) hword
    simp only [Option.map_some, Option.bind_some, hstep, hbound]
    split
    · cases CountedLoop.bound? condition index with
      | none => rfl
      | some array => cases n.child? .body <;> rfl
    · rfl
  · rfl

/-- The index of a loop is a word. -/
lemma index_mem_words_of_ofNode? (h : φ.Good n) (hl : CountedLoop.ofNode? n = some l) :
    l.index ∈ φ.words := by
  obtain ⟨_, _, _, initializer, _, _, hi, _, _, hzero, _, _⟩ :=
    CountedLoop.ofNode?_eq_some_iff.mp hl
  exact φ.index_mem_words (φ.good_of_child? h hi) hzero

/-! ### What is visited -/

/-- The array of a loop is kept: it is what a field leads to, or stands in parentheses. -/
lemma keeps_unwrap (h : φ.Good n) (hk : φ.keeps n = true) : φ.keeps n.unwrap = true := by
  fun_induction Node.unwrap n with
  | case1 n _ inner hinner ih =>
    have hmem := List.mem_filter.mp (List.mem_of_mem_head? hinner)
    have hcomment : inner.kind.isComment = false := by
      have htest := hmem.2
      rw [Bool.and_eq_true, Bool.not_eq_true'] at htest
      exact htest.2
    exact ih (φ.good_child h hmem.1) (φ.keeps_of_not_comment hcomment)
  | case2 => exact hk
  | case3 => exact hk

/-- The array of a loop is no comment, and so it is kept. -/
lemma keeps_array (h : φ.Good n) (hl : CountedLoop.ofNode? n = some l) :
    φ.keeps l.array = true := by
  obtain ⟨_, _, _, _, condition, _, _, hc, _, _, _, ha⟩ := CountedLoop.ofNode?_eq_some_iff.mp hl
  have hcond := φ.good_of_clause? h hc
  unfold CountedLoop.bound? at ha
  split at ha
  · obtain ⟨limit, hlimit, ha⟩ := Option.bind_eq_some_iff.mp ha
    split at ha
    · obtain ⟨object, hobject, harray⟩ := Option.map_eq_some_iff.mp ha
      have hlim := φ.good_of_child? hcond hlimit
      rw [← harray]
      exact φ.keeps_unwrap (φ.good_of_child? hlim hobject) (φ.keeps_of_child? hlim hobject)
    · cases ha
  · cases ha

/-- The same nodes are visited next, apart from children that are not kept. -/
lemma parts_map (h : φ.Good n) : (φ.map n).parts = (n.parts.filter φ.keeps).map φ.map := by
  have hof := φ.ofNode?_map h
  rcases Node.parts_cases n with ⟨l, hl, hp⟩ | ⟨hl, ha, hp⟩ | ⟨hl, ha, hp⟩
  · rw [hl] at hof
    have harray := φ.keeps_array h hl
    have hbody := φ.keeps_of_child? h (CountedLoop.body_of_ofNode? hl)
    rw [Node.parts_of_loop hof, hp]
    simp [harray, hbody, loop]
  · rw [hl] at hof
    rw [Node.parts_of_atom hof (by rw [φ.isAtom_map, ha]), hp]
    rfl
  · rw [hl] at hof
    rw [Node.parts_of_inner hof (by rw [φ.isAtom_map, ha]), hp, φ.children_map]

/-- What is visited below a good node is good. -/
lemma good_part (h : φ.Good n) (hc : c ∈ n.parts) : φ.Good c :=
  φ.good_of_mem_preorder h (Node.mem_preorder_of_mem_parts hc)

/-- Only comments are dropped. -/
lemma isComment_of_not_keeps (h : φ.keeps n = false) : n.kind.isComment = true := by
  cases hc : n.kind.isComment with
  | true => rfl
  | false =>
    rw [φ.keeps_of_not_comment hc] at h
    cases h

/-- What is collected from the parts is the same if it is for each of them, and nothing is collected
from a comment. -/
lemma flatMap_parts_map {α : Type} {f g : Node → List α} (h : φ.Good n)
    (hfg : ∀ c ∈ n.parts, f (φ.map c) = g c) (hg : ∀ c, c.kind.isComment = true → g c = []) :
    (φ.map n).parts.flatMap f = n.parts.flatMap g := by
  rw [φ.parts_map h]
  generalize n.parts = ps at hfg
  induction ps with
  | nil => rfl
  | cons c ps ih =>
    have ih := ih fun d hd => hfg d (List.mem_cons_of_mem c hd)
    cases hc : φ.keeps c with
    | false =>
      rw [List.filter_cons_of_neg (by simp [hc]), List.flatMap_cons,
        hg c (φ.isComment_of_not_keeps hc), ih, List.nil_append]
    | true =>
      rw [List.filter_cons_of_pos hc, List.map_cons, List.flatMap_cons, List.flatMap_cons, ih,
        hfg c List.mem_cons_self]

/-! ### What is found -/

/-- A loop lacks its body exactly if it did before. -/
lemma lacksBody_map (h : φ.Good n) : (φ.map n).lacksBody = n.lacksBody := by
  rw [Node.lacksBody, φ.kind_map, φ.child?_map h, Option.isNone_map, Node.lacksBody]

/-- The walk over a recast node fails if the walk over the node does. -/
lemma complete_map (h : φ.Good n) : (φ.map n).Complete ↔ n.Complete := by
  induction n using Node.visitInduction with
  | step n ih =>
    rw [Node.complete_iff, Node.complete_iff, φ.lacksBody_map h, φ.parts_map h]
    refine and_congr_right fun _ => ⟨fun hall c hc => ?_, fun hall d hd => ?_⟩
    · cases hk : φ.keeps c with
      | false => exact Node.complete_of_comment (φ.isComment_of_not_keeps hk)
      | true =>
        refine (ih c hc (φ.good_part h hc)).mp (hall (φ.map c) (List.mem_map_of_mem ?_))
        exact List.mem_filter.mpr ⟨hc, hk⟩
    · obtain ⟨c, hc, rfl⟩ := List.mem_map.mp hd
      have hmem := (List.mem_filter.mp hc).1
      exact (ih c hmem (φ.good_part h hmem)).mpr (hall c hmem)

/-- A use names the renamed index exactly if it named the index before. -/
lemma text_map_eq_iff_of_isReference (h : φ.Good r) (hr : r.isReference = true)
    (hi : index ∈ φ.words) : (φ.map r).text = φ.rename index ↔ r.text = index :=
  φ.text_map_eq_iff h (Node.isSpelled_of_isReference hr) hi

/-- A use in a node is good if the node is. -/
lemma good_of_mem_freeUses (h : φ.Good n) (hr : r ∈ n.freeUses) :
    φ.Good r ∧ r.isReference = true := by
  obtain ⟨href, hv, -⟩ := Node.mem_freeUses_iff.mp hr
  exact ⟨φ.good_of_mem_preorder h hv.mem_preorder, href⟩

/-- The free uses are recast. -/
lemma freeUses_map (h : φ.Good n) : (φ.map n).freeUses = n.freeUses.map φ.map := by
  induction n using Node.visitInduction with
  | step n ih =>
    have hbelow : (φ.map n).parts.flatMap Node.freeUses =
        (n.parts.flatMap Node.freeUses).map φ.map := by
      rw [List.map_flatMap]
      refine φ.flatMap_parts_map h (fun c hc => ih c hc (φ.good_part h hc)) fun c hc => ?_
      rw [Node.freeUses_of_comment hc]
      rfl
    have hgood : ∀ r ∈ n.parts.flatMap Node.freeUses, φ.Good r ∧ r.isReference = true := by
      intro r hr
      obtain ⟨c, hc, hrc⟩ := List.mem_flatMap.mp hr
      exact φ.good_of_mem_freeUses (φ.good_part h hc) hrc
    rw [Node.freeUses_eq, Node.freeUses_eq, φ.ofNode?_map h, φ.isReference_map h, hbelow]
    cases hl : CountedLoop.ofNode? n with
    | none => cases n.isReference <;> rfl
    | some l =>
      have hword := φ.index_mem_words_of_ofNode? h hl
      simp only [Option.map_some, loop, List.filter_map]
      congr 1
      refine List.filter_congr fun r hr => ?_
      have hiff := φ.text_map_eq_iff_of_isReference (hgood r hr).1 (hgood r hr).2 hword
      simp only [Function.comp_apply, ne_eq, hiff]

/-- The visited loops are recast. -/
lemma visitedLoops_map (h : φ.Good n) : (φ.map n).visitedLoops = n.visitedLoops.map φ.loop := by
  induction n using Node.visitInduction with
  | step n ih =>
    have hbelow : (φ.map n).parts.flatMap Node.visitedLoops =
        (n.parts.flatMap Node.visitedLoops).map φ.loop := by
      rw [List.map_flatMap]
      refine φ.flatMap_parts_map h (fun c hc => ih c hc (φ.good_part h hc)) fun c hc => ?_
      rw [Node.visitedLoops_of_comment hc]
      rfl
    rw [Node.visitedLoops_eq, Node.visitedLoops_eq, φ.ofNode?_map h, hbelow, List.map_append]
    cases CountedLoop.ofNode? n <;> rfl

/-- Whether a loop's index is only read is not changed. -/
lemma onlyReads_loop (h : φ.Good n) (hl : CountedLoop.ofNode? n = some l) :
    (φ.loop l).onlyReads = l.onlyReads := by
  have hparts := Node.parts_of_loop hl
  have harray : φ.Good l.array := φ.good_part h (by simp [hparts])
  have hbody : φ.Good l.body := φ.good_part h (by simp [hparts])
  have hword := φ.index_mem_words_of_ofNode? h hl
  have hgood : ∀ r ∈ l.array.freeUses ++ l.body.freeUses, φ.Good r ∧ r.isReference = true := by
    intro r hr
    rcases List.mem_append.mp hr with hr | hr
    · exact φ.good_of_mem_freeUses harray hr
    · exact φ.good_of_mem_freeUses hbody hr
  have huses : (φ.loop l).boundUses = l.boundUses.map φ.map := by
    change List.filter _ ((φ.map l.array).freeUses ++ (φ.map l.body).freeUses) = _
    rw [φ.freeUses_map harray, φ.freeUses_map hbody, ← List.map_append, List.filter_map]
    congr 1
    refine List.filter_congr fun r hr => ?_
    have hiff := φ.text_map_eq_iff_of_isReference (hgood r hr).1 (hgood r hr).2 hword
    simp only [Function.comp_apply, loop, hiff]
  rw [CountedLoop.onlyReads, huses, List.all_map, CountedLoop.onlyReads, Bool.eq_iff_iff,
    List.all_eq_true, List.all_eq_true]
  refine forall_congr' fun r => imp_congr_right fun hr => ?_
  obtain ⟨hr, href⟩ := hgood r (List.mem_filter.mp hr).1
  have hkeeps := φ.keeps_of_not_comment (Node.isComment_of_isReference href)
  have hread := φ.isPureRead_map hr hkeeps harray
  rw [Function.comp_apply, ← hread]
  rfl

/-- The findings in a recast tree are the findings in the tree, recast. -/
theorem findings_map (h : φ.Good n) :
    (φ.map n).findings .nothing = (n.findings .nothing).map φ.loop := by
  rw [Node.findings, φ.visitedLoops_map h, List.filter_map, Node.findings]
  congr 1
  refine List.filter_congr fun l hl => ?_
  obtain ⟨hof, hv⟩ := Node.mem_visitedLoops_iff.mp hl
  have hreads := φ.onlyReads_loop (φ.good_of_mem_preorder h hv.mem_preorder) hof
  rw [Function.comp_apply, CountedLoop.isReportable, CountedLoop.isReportable, hreads]
  rfl

end Recast
end LoopLint
