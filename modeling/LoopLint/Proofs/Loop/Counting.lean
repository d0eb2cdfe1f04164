import LoopLint.Proofs.Loop.Header
import LoopLint.Proofs.Loop.Meaning
import LoopLint.Proofs.Loop.Spelling

/-!
# Counted loops count

A header that is recognised means what it looks like.  The declaration sets the index to zero, the
step adds one to it and changes nothing else, and the condition compares it with the length of the
array.

If the array stays the same, it follows that the body runs once for each position of the array, in
order.  That the array stays the same is a matter of the body, but also of the header: the array is
evaluated anew in each round, and may be an expression like `m[i]`.  `Steady` says that neither the
index nor the evaluation changes the array.  Without it the loop may stop early
(`counted_loop_stops_early`).
-/

namespace LoopLint

namespace Node

/-- Whether the node is built as the grammar has it: the declarators of a declaration are named, and
an update is made of one operand and one sign. -/
def isShaped (n : Node) : Bool :=
  match n.kind with
  | .lexicalDeclaration | .variableDeclaration =>
    n.children.all fun c => c.kind != .variableDeclarator || c.label.named
  | .update =>
    let row := n.constituents.map fun c => (c.label.field, c.focus.isContent)
    row == [(some (.other "argument"), true), (some .operator, false)] ||
      row == [(some .operator, false), (some (.other "argument"), true)]
  | _ => true

/-- All nodes of the subtree are built as the grammar has it. -/
def Shaped (n : Node) : Prop :=
  ∀ m ∈ n.preorder, m.isShaped = true

instance (n : Node) : Decidable n.Shaped :=
  inferInstanceAs (Decidable (∀ m ∈ n.preorder, _))

end Node

namespace CountedLoop

open Node

variable {n c d : Node} {l : CountedLoop} {index : String} {s s₁ s' : Store} {m : Int}
variable {outside : Meaning}

/-! ### The clauses of a header -/

/-- The numeral `0` is zero. -/
lemma numeral?_zero : numeral? "0" = some 0 := by decide +kernel

/-- The numeral `1` is one. -/
lemma numeral?_one : numeral? "1" = some 1 := by decide +kernel

/-- A numeral that the header asks for evaluates to its number. -/
lemma eval_isNumber {text : String} {k : Nat} (hn : n.isNumber text = true)
    (hk : numeral? text = some k) : n.eval outside s = some (.number k, s) := by
  rw [isNumber, Bool.and_eq_true, beq_iff_eq, beq_iff_eq] at hn
  exact eval_number outside hn.1 (hn.2 ▸ hk)

/-- All declarators of a declaration are named. -/
lemma filter_declarators (hshape : d.isShaped = true)
    (hd : d.kind = .lexicalDeclaration ∨ d.kind = .variableDeclaration) :
    d.children.filter (fun c => c.kind == .variableDeclarator) =
      d.namedChildren.filter (fun c => c.kind == .variableDeclarator) := by
  have hall : d.children.all (fun c => c.kind != .variableDeclarator || c.label.named) = true := by
    rcases hd with hd | hd <;> simpa only [isShaped, hd] using hshape
  rw [namedChildren, List.filter_filter]
  refine List.filter_congr fun c hc => ?_
  have hc := List.all_eq_true.mp hall c hc
  by_cases hkind : c.kind = .variableDeclarator
  · have hnamed : c.label.named = true := by simpa [hkind] using hc
    simp [hkind, hnamed, Kind.isComment]
  · simp [hkind]

/-- The declaration of an index sets it to zero. -/
lemma declare_of_zeroIndex? (hshape : d.isShaped = true) (h : zeroIndex? d = some index) :
    d.declare outside s = some (s.assign index (.number 0)) := by
  unfold zeroIndex? at h
  split at h
  · rename_i hd
    rw [← filter_declarators hshape hd] at h
    split at h
    · rename_i declarator hrow
      split at h
      · rename_i hzero
        obtain ⟨value, hvalue, hnumber⟩ := childIs_eq_true_iff.mp hzero
        obtain ⟨name, hname, rfl⟩ := Option.map_eq_some_iff.mp h
        obtain ⟨hname, hkind⟩ := Option.filter_eq_some_iff.mp hname
        have heval : value.eval outside s = some (.number 0, s) :=
          eval_isNumber hnumber numeral?_zero
        rw [declare, hrow]
        simp [declareOne, hname, hvalue, heval, eq_of_beq hkind]
      · cases h
    · cases h
  · cases h

/-- An update is made of an operand and a sign, one way or the other. -/
lemma row_of_update (hshape : c.isShaped = true) (hkind : c.kind = .update) :
    ∃ x sign, (c.constituents = [x, sign] ∨ c.constituents = [sign, x]) ∧
      x.label.field = some (.other "argument") ∧ x.focus.isContent = true ∧
      sign.label.field = some .operator ∧ sign.focus.isContent = false := by
  simp only [isShaped, hkind, Bool.or_eq_true, beq_iff_eq, List.map_eq_cons_iff,
    List.map_eq_nil_iff, Prod.mk.injEq] at hshape
  rcases hshape with ⟨x, _, hrow, ⟨hx, hx'⟩, sign, _, rfl, ⟨hsign, hsign'⟩, rfl⟩ |
    ⟨sign, _, hrow, ⟨hsign, hsign'⟩, x, _, rfl, ⟨hx, hx'⟩, rfl⟩
  · exact ⟨x, sign, .inl hrow, hx, hx', hsign, hsign'⟩
  · exact ⟨x, sign, .inr hrow, hx, hx', hsign, hsign'⟩

/-- The operand of an update that is an increment is the index, and its sign is `++`. -/
lemma parts_of_update (hshape : c.isShaped = true) (hkind : c.kind = .update)
    (hplus : c.hasChild .plusPlus = true)
    (hfirst : c.namedChildren.head?.any (·.isIdentifier index) = true) :
    ∃ x sign, c.child? (.other "argument") = some x ∧ c.child? .operator = some sign ∧
      x.isIdentifier index = true ∧ sign.kind = .plusPlus := by
  obtain ⟨x, sign, hrow, hx, hcontent, hsign, hsymbol⟩ := row_of_update hshape hkind
  have hhead : c.namedChildren.head? = some x := by
    rcases hrow with hrow | hrow
    · exact head?_namedChildren_of_row [] hrow (by simp) hcontent
    · exact head?_namedChildren_of_row [sign] hrow (by simp [hsymbol]) hcontent
  have hargument : c.child? (.other "argument") = some x := by
    rcases hrow with hrow | hrow
    · exact child?_of_row [] hrow (by simp) hx
    · exact child?_of_row [sign] hrow (by simp [hsign]) hx
  have hoperator : c.child? .operator = some sign := by
    rcases hrow with hrow | hrow
    · exact child?_of_row [x] hrow (by simp [hx]) hsign
    · exact child?_of_row [] hrow (by simp) hsign
  have hname : x.isIdentifier index = true := by
    rwa [hhead, Option.any_some] at hfirst
  refine ⟨x, sign, hargument, hoperator, hname, ?_⟩
  have hidentifier : x.kind = .identifier := (isIdentifier_eq_true_iff.mp hname).1
  rw [hasChild_eq c rfl] at hplus
  rcases hrow with hrow | hrow <;> simpa [hrow, hidentifier] using hplus

/-- The sum of the index and one evaluates to the next number. -/
lemma eval_of_isSuccessor (h : isSuccessor c index = true)
    (hm : s.vars index = some (.number m)) :
    c.eval outside s = some (.number (m + 1), s) := by
  simp only [isSuccessor, Bool.and_eq_true, Bool.or_eq_true, beq_iff_eq, childIs_eq_true_iff] at h
  obtain ⟨⟨hkind, sign, hsign, hplus⟩, hterms⟩ := h
  rcases hterms with ⟨⟨x, hx, hname⟩, y, hy, hone⟩ | ⟨⟨y, hy, hone⟩, x, hx, hname⟩
  · have hleft := eval_identifier outside hname hm
    have hright : y.eval outside s = some (.number 1, s) := eval_isNumber hone numeral?_one
    exact (eval_binary outside hkind hx hy hsign hleft hright).1 hplus
  · have hleft : y.eval outside s = some (.number 1, s) := eval_isNumber hone numeral?_one
    have hright := eval_identifier outside hname hm
    rw [Int.add_comm]
    exact (eval_binary outside hkind hy hx hsign hleft hright).1 hplus

/-- The step adds one to the index. -/
lemma eval_of_isIncrement (hshape : c.isShaped = true) (h : isIncrement c index = true)
    (hm : s.vars index = some (.number m)) :
    ∃ v, c.eval outside s = some (v, s.assign index (.number (m + 1))) := by
  unfold isIncrement at h
  split at h
  · rename_i hkind
    rw [Bool.and_eq_true] at h
    obtain ⟨x, sign, hx, hsign, hname, hplus⟩ := parts_of_update hshape hkind h.1 h.2
    obtain ⟨hidentifier, rfl⟩ := isIdentifier_eq_true_iff.mp hname
    exact ⟨_, eval_update outside hkind hx hsign hidentifier hplus hm⟩
  · rename_i hkind
    simp only [Bool.and_eq_true, beq_iff_eq, childIs_eq_true_iff] at h
    obtain ⟨⟨⟨x, hx, hname⟩, sign, hsign, hplus⟩, y, hy, hone⟩ := h
    obtain ⟨hidentifier, rfl⟩ := isIdentifier_eq_true_iff.mp hname
    have hright : y.eval outside s = some (.number 1, s) := eval_isNumber hone numeral?_one
    exact ⟨_, eval_addition outside hkind hx hy hsign hidentifier hplus hm hright⟩
  · rename_i hkind
    simp only [Bool.and_eq_true, childIs_eq_true_iff] at h
    obtain ⟨⟨x, hx, hname⟩, y, hy, hsuccessor⟩ := h
    obtain ⟨hidentifier, rfl⟩ := isIdentifier_eq_true_iff.mp hname
    exact ⟨_, eval_assignment outside hkind hx hy hidentifier (eval_of_isSuccessor hsuccessor hm)⟩
  · cases h

/-- The condition compares the index with the length of the array. -/
lemma eval_of_bound? {array : Node} {place : Nat} (h : bound? c index = some array)
    (hm : s.vars index = some (.number m))
    (harray : array.eval outside s = some (.array place, s₁)) :
    c.eval outside s = some (.truth (m < (s₁.arrays place).length), s₁) := by
  unfold bound? at h
  split at h
  · rename_i hc
    obtain ⟨hkind, hless, hindex⟩ := hc
    obtain ⟨sign, hsign, hless⟩ := childIs_eq_true_iff.mp hless
    obtain ⟨x, hx, hindex⟩ := childIs_eq_true_iff.mp hindex
    obtain ⟨limit, hlimit, h⟩ := Option.bind_eq_some_iff.mp h
    split at h
    · rename_i hmember
      obtain ⟨object, hobject, rfl⟩ := Option.map_eq_some_iff.mp h
      rw [eval_unwrap] at harray
      have hlength := eval_length outside hmember.1 hmember.2 hobject harray
      have hleft : x.eval outside s = some (.number m, s) := eval_identifier outside hindex hm
      exact (eval_binary outside hkind hx hlimit hsign hleft hlength).2 (eq_of_beq hless)
    · cases h
  · cases h

/-- A clause has the value of its expression. -/
lemma exists_child?_of_clause? (outside : Meaning) {f : Field} (h : clause? n f = some c) :
    ∃ d, n.child? f = some d ∧ ∀ s, d.eval outside s = c.eval outside s := by
  obtain ⟨d, hd, hc⟩ := Option.bind_eq_some_iff.mp h
  refine ⟨d, hd, fun s => ?_⟩
  split at hc
  · cases hc
  · cases hc
  · rename_i hkind
    exact eval_first outside (.inr hkind) hc
  · cases hc
    rfl

section Header

variable (hn : ofNode? n = some l)
include hn

/-- The initializer of a counted loop sets the index to zero. -/
lemma enter_eq (hshape : n.Shaped) (s : Store) :
    n.enter outside s = some (s.assign l.index (.number 0)) := by
  obtain ⟨-, -, -, initializer, -, -, hinitializer, -, -, hindex, -, -⟩ := ofNode?_eq_some_iff.mp hn
  have hmem := mem_preorder_of_mem_children (mem_children_of_child? hinitializer)
  rw [enter, hinitializer, Option.bind_some]
  exact declare_of_zeroIndex? (hshape _ hmem) hindex

/-- The step of a counted loop adds one to the index, and changes nothing else. -/
lemma advance_eq (hshape : n.Shaped) (hm : s.vars l.index = some (.number m)) :
    n.advance outside s = some (s.assign l.index (.number (m + 1))) := by
  obtain ⟨-, -, -, -, -, step, -, -, hstep, -, hincrement, -⟩ := ofNode?_eq_some_iff.mp hn
  obtain ⟨d, hd, heval⟩ := exists_child?_of_clause? outside hstep
  obtain ⟨v, hv⟩ : ∃ v, step.eval outside s = some (v, s.assign l.index (.number (m + 1))) :=
    eval_of_isIncrement (hshape _ (mem_preorder_of_clause? hstep)) hincrement hm
  rw [advance, hd]
  simp [heval, hv]

/-- A counted loop goes on as long as the index is less than the length of the array. -/
lemma test_eq {place : Nat} (hm : s.vars l.index = some (.number m))
    (harray : l.array.eval outside s = some (.array place, s₁)) :
    n.test outside s = some (decide (m < (s₁.arrays place).length), s₁) := by
  obtain ⟨-, -, -, -, condition, -, -, hcondition, -, -, -, hbound⟩ := ofNode?_eq_some_iff.mp hn
  obtain ⟨d, hd, heval⟩ := exists_child?_of_clause? outside hcondition
  have hv := eval_of_bound? hbound hm harray
  rw [test, hd]
  simp [heval, hv]

end Header

/-! ### The rounds of a counted loop -/

/-- The array of the loop stays the same in all stores with the property `P`: it is the array at a
place, with the given items, and neither evaluating it nor setting the index changes this.  Nor does
evaluating it change the index. -/
structure Steady (outside : Meaning) (l : CountedLoop) (place : Nat) (xs : List Value)
    (P : Store → Prop) : Prop where
  items : ∀ s, P s → s.arrays place = xs
  eval : ∀ s, P s → ∃ s₁, l.array.eval outside s = some (.array place, s₁) ∧
    s₁.vars l.index = s.vars l.index ∧ P s₁
  assign : ∀ s v, P s → P (s.assign l.index v)

/-- The body neither assigns the index nor changes the array. -/
def Leaves (l : CountedLoop) (P : Store → Prop) (body : Store → Store → Prop) : Prop :=
  ∀ s s', P s → body s s' → P s' ∧ s'.vars l.index = s.vars l.index

/-- The element of the array at the index. -/
def element (outside : Meaning) (l : CountedLoop) (s : Store) : Option Value := do
  let (v, s₁) ← l.array.eval outside s
  match v, s₁.vars l.index with
  | .array place, some (.number k) => k.toNat?.bind fun j => (s₁.arrays place)[j]?
  | _, _ => none

section Rounds

variable {place : Nat} {xs : List Value} {P : Store → Prop} {body : Store → Store → Prop}

/-- The test of a round. -/
lemma Steady.test (hsteady : Steady outside l place xs P) (hn : ofNode? n = some l) {k : Nat}
    (hs : P s) (hk : s.vars l.index = some (.number k)) :
    ∃ s₁, n.test outside s = some (decide (k < xs.length), s₁) ∧ P s₁ ∧
      s₁.vars l.index = some (.number k) := by
  obtain ⟨s₁, heval, hindex, hs₁⟩ := hsteady.eval s hs
  refine ⟨s₁, ?_, hs₁, hindex.trans hk⟩
  rw [test_eq hn hk heval, hsteady.items s₁ hs₁]
  simp

/-- In the rounds from an index on, the body starts with this index and the following ones. -/
lemma Steady.rounds (hsteady : Steady outside l place xs P) (hleaves : l.Leaves P body)
    (hn : ofNode? n = some l) (hshape : n.Shaped) {starts : List Store}
    (h : Rounds outside n body s starts s') {k : Nat} (hs : P s)
    (hk : s.vars l.index = some (.number k)) (hle : k ≤ xs.length) :
    List.Forall₂ (fun t j => P t ∧ t.vars l.index = some (.number (j : Nat))) starts
      (List.range' k (xs.length - k)) := by
  induction h generalizing k with
  | stop htest =>
    obtain ⟨s₁, htest', -, -⟩ := hsteady.test hn hs hk
    rw [htest, Option.some.injEq, Prod.mk.injEq] at htest'
    have hend : ¬ k < xs.length := of_decide_eq_false htest'.1.symm
    rw [Nat.sub_eq_zero_of_le (Nat.le_of_not_lt hend)]
    exact .nil
  | @round s s₁ s₂ s₃ s' starts htest hbody hstep _ ih =>
    obtain ⟨t, htest', ht, hkt⟩ := hsteady.test hn hs hk
    rw [htest, Option.some.injEq, Prod.mk.injEq] at htest'
    obtain ⟨hlt, rfl⟩ := htest'
    have hlt : k < xs.length := of_decide_eq_true hlt.symm
    obtain ⟨hs₂, hk₂⟩ := hleaves s₁ s₂ ht hbody
    rw [advance_eq hn hshape (hk₂.trans hkt), Option.some.injEq] at hstep
    subst hstep
    have hlength : xs.length - k = xs.length - (k + 1) + 1 := by omega
    rw [hlength, List.range'_succ]
    exact .cons ⟨ht, hkt⟩ (@ih (k + 1) (hsteady.assign s₂ _ hs₂) (by simp) hlt)

/-- If the body always comes to an end, then so does the loop. -/
lemma Steady.exists_rounds (hsteady : Steady outside l place xs P) (hleaves : l.Leaves P body)
    (hn : ofNode? n = some l) (hshape : n.Shaped) (hbody : ∀ s, P s → ∃ s', body s s') {k : Nat}
    (hs : P s) (hk : s.vars l.index = some (.number k)) :
    ∃ starts s', Rounds outside n body s starts s' := by
  induction hd : xs.length - k generalizing k s with
  | zero =>
    obtain ⟨s₁, htest, -, -⟩ := hsteady.test hn hs hk
    have hend : ¬ k < xs.length := by omega
    rw [decide_eq_false hend] at htest
    exact ⟨[], s₁, .stop htest⟩
  | succ d ih =>
    obtain ⟨s₁, htest, hs₁, hk₁⟩ := hsteady.test hn hs hk
    have hlt : k < xs.length := by omega
    rw [decide_eq_true hlt] at htest
    obtain ⟨s₂, hbody₂⟩ := hbody s₁ hs₁
    obtain ⟨hs₂, hk₂⟩ := hleaves s₁ s₂ hs₁ hbody₂
    have hstep : n.advance outside s₂ = some (s₂.assign l.index (.number (k + 1))) :=
      advance_eq hn hshape (hk₂.trans hk₁)
    obtain ⟨starts, s', hrest⟩ := @ih _ (k + 1) (hsteady.assign s₂ (.number (k + 1)) hs₂) (by simp)
      (by omega)
    exact ⟨s₁ :: starts, s', .round htest hbody₂ hstep hrest⟩

/-- In a steady array the element at the index is that of the list. -/
lemma Steady.element_eq (hsteady : Steady outside l place xs P) (hs : P s) {k : Nat}
    (hk : s.vars l.index = some (.number k)) : l.element outside s = xs[k]? := by
  obtain ⟨s₁, heval, hindex, hs₁⟩ := hsteady.eval s hs
  rw [element, heval]
  simp [hindex.trans hk, hsteady.items s₁ hs₁, Int.toNat?]

/-- What is the same for each start and its index is the same for all starts and all indices. -/
lemma map_eq_map_of_forall₂ {α β γ : Type} {R : α → β → Prop} {as : List α} {bs : List β}
    {F : α → γ} {G : β → γ} (h : List.Forall₂ R as bs) (heq : ∀ a b, R a b → F a = G b) :
    as.map F = bs.map G := by
  have hmap : List.Forall₂ (· = ·) (as.map F) (bs.map G) := by
    rw [List.forall₂_map_left_iff, List.forall₂_map_right_iff]
    exact h.imp heq
  rwa [List.forall₂_eq_eq_eq] at hmap

/-- The positions of an array, one after the other, give its items. -/
lemma map_getElem?_range (xs : List Value) :
    (List.range xs.length).map (fun j => xs[j]?) = xs.map some := by
  refine List.ext_getElem (by simp) fun j hj hj' => ?_
  simp

/-- The body of a loop starts with all positions of the array in order, and so with all elements. -/
lemma Steady.runs (hsteady : Steady outside l place xs P) (hleaves : l.Leaves P body)
    (hn : ofNode? n = some l) (hshape : n.Shaped) {starts : List Store} (hs : P s)
    (h : Runs outside n body s starts s') :
    starts.map (·.vars l.index) = (List.range xs.length).map (fun k => some (.number k)) ∧
      starts.map (l.element outside) = xs.map some := by
  obtain ⟨s₀, hs₀, hrounds⟩ := h
  rw [enter_eq hn hshape, Option.some.injEq] at hs₀
  subst hs₀
  have hstarts := hsteady.rounds hleaves hn hshape hrounds (k := 0) (hsteady.assign s _ hs)
    (by simp) (Nat.zero_le _)
  rw [Nat.sub_zero, ← List.range_eq_range'] at hstarts
  constructor
  · exact map_eq_map_of_forall₂ hstarts fun t j ht => ht.2
  · rw [← map_getElem?_range]
    exact map_eq_map_of_forall₂ hstarts fun t j ht => hsteady.element_eq ht.1 ht.2

/-- A counted loop over a steady array ends if its body does. -/
lemma Steady.exists_runs (hsteady : Steady outside l place xs P) (hleaves : l.Leaves P body)
    (hn : ofNode? n = some l) (hshape : n.Shaped) (hs : P s)
    (hbody : ∀ s, P s → ∃ s', body s s') : ∃ starts s', Runs outside n body s starts s' := by
  obtain ⟨starts, s', h⟩ := hsteady.exists_rounds hleaves hn hshape hbody (k := 0)
    (hsteady.assign s (.number 0) hs) (by simp)
  exact ⟨starts, s', _, enter_eq hn hshape s, h⟩

/-! ### The rounds of a `for … of` loop -/

variable {item : Value → Store → Store → Prop} {items : List Value}

/-- A loop over the elements from some position on comes to those of the list. -/
lemma Steady.visits (hsteady : Steady outside l place xs P)
    (hleaves : ∀ v s s', P s → item v s s' → P s') {k : Nat}
    (h : Visits place item k s items s') (hs : P s) : items = xs.drop k := by
  induction h with
  | stop hend =>
    rw [hsteady.items _ hs, List.getElem?_eq_none_iff] at hend
    exact (List.drop_eq_nil_of_le hend).symm
  | visit hitem hbody _ ih =>
    rw [hsteady.items _ hs, List.getElem?_eq_some_iff] at hitem
    obtain ⟨hk, rfl⟩ := hitem
    rw [ih (hleaves _ _ _ hs hbody), List.drop_eq_getElem_cons hk]

/-- A loop over the elements from some position on ends if its body does. -/
lemma Steady.exists_visits (hsteady : Steady outside l place xs P)
    (hleaves : ∀ v s s', P s → item v s s' → P s') (hitem : ∀ v s, P s → ∃ s', item v s s')
    (k : Nat) (hs : P s) : ∃ items s', Visits place item k s items s' := by
  induction hd : xs.length - k generalizing k s with
  | zero =>
    refine ⟨[], s, .stop ?_⟩
    rw [hsteady.items s hs, List.getElem?_eq_none_iff]
    omega
  | succ d ih =>
    have hk : k < xs.length := by omega
    obtain ⟨s₁, hs₁⟩ := hitem xs[k] s hs
    obtain ⟨items, s', h⟩ := ih (k + 1) (hleaves _ _ _ hs hs₁) (by omega)
    refine ⟨xs[k] :: items, s', .visit ?_ hs₁ h⟩
    rw [hsteady.items s hs, List.getElem?_eq_getElem hk]

/-- The items of a `for … of` loop are those of the array. -/
lemma Steady.runsOver (hsteady : Steady outside l place xs P)
    (hleaves : ∀ v s s', P s → item v s s' → P s') (hs : P s)
    (h : RunsOver outside l.array item s items s') : items = xs := by
  obtain ⟨place', s₀, heval, hvisits⟩ := h
  obtain ⟨s₁, heval', -, hs₁⟩ := hsteady.eval s hs
  rw [heval', Option.some.injEq, Prod.mk.injEq, Value.array.injEq] at heval
  obtain ⟨rfl, rfl⟩ := heval
  exact hsteady.visits hleaves hvisits hs₁

/-- A loop over the elements of a steady array ends if its body does. -/
lemma Steady.exists_runsOver (hsteady : Steady outside l place xs P)
    (hleaves : ∀ v s s', P s → item v s s' → P s') (hitem : ∀ v s, P s → ∃ s', item v s s')
    (hs : P s) : ∃ items s', RunsOver outside l.array item s items s' := by
  obtain ⟨s₁, heval, -, hs₁⟩ := hsteady.eval s hs
  obtain ⟨items, s', h⟩ := hsteady.exists_visits hleaves hitem 0 hs₁
  exact ⟨items, s', place, s₁, heval, h⟩

end Rounds

/-- A header that is recognised counts.  Its declaration sets the index to zero, its step adds one
to the index and changes nothing else, and its condition holds if the index is less than the length
of the array.

Let the array stay the same, of its own and in the body, and let the body not assign the index.
Then the body runs exactly for the positions of the array in order, that is, over exactly the
elements that a `for … of` loop has as its items; and the loop comes to an end if the body always
does. -/
theorem counted_loop_runs_over_elements (outside : Meaning) (n : Node) (l : CountedLoop)
    (hn : ofNode? n = some l) (hshape : n.Shaped) :
    (∀ s, n.enter outside s = some (s.assign l.index (.number 0))) ∧
    (∀ s m, s.vars l.index = some (.number m) →
      n.advance outside s = some (s.assign l.index (.number (m + 1)))) ∧
    (∀ s s₁ (m : Int) place, s.vars l.index = some (.number m) →
      l.array.eval outside s = some (.array place, s₁) →
      n.test outside s = some (decide (m < (s₁.arrays place).length), s₁)) ∧
    ∀ place xs P, Steady outside l place xs P → ∀ s, P s →
      (∀ body, l.Leaves P body →
        (∀ starts s', Runs outside n body s starts s' →
          starts.map (·.vars l.index) =
              (List.range xs.length).map (fun k => some (.number k)) ∧
            starts.map (l.element outside) = xs.map some) ∧
        ((∀ s, P s → ∃ s', body s s') → ∃ starts s', Runs outside n body s starts s')) ∧
      ∀ body, (∀ v s s', P s → body v s s' → P s') →
        (∀ items s', RunsOver outside l.array body s items s' → items = xs) ∧
        ((∀ v s, P s → ∃ s', body v s s') →
          ∃ items s', RunsOver outside l.array body s items s') := by
  refine ⟨enter_eq hn hshape, fun s m hm => advance_eq hn hshape hm,
    fun s s₁ m place hm harray => test_eq hn hm harray, fun place xs P hsteady s hs => ?_⟩
  constructor
  · intro body hleaves
    exact ⟨fun starts s' h => hsteady.runs hleaves hn hshape hs h,
      fun hbody => hsteady.exists_runs hleaves hn hshape hs hbody⟩
  · intro body hleaves
    exact ⟨fun items s' h => hsteady.runsOver hleaves hs h,
      fun hbody => hsteady.exists_runsOver hleaves hbody hs⟩

/-- The header of `spelledTree` is recognised, with the array `items`. -/
lemma exists_ofNode?_spelledTree : ∃ l, ofNode? (ofTree (spelledTree "i" "i" "i")) = some l ∧
    l.index = "i" ∧ l.array.isIdentifier "items" = true := by
  have htest : (ofNode? (ofTree (spelledTree "i" "i" "i"))).any
      (fun l => l.index == "i" && l.array.isIdentifier "items") = true := by decide +kernel
  obtain ⟨l, hl, hfacts⟩ := (Option.any_eq_true _ _).mp htest
  rw [Bool.and_eq_true, beq_iff_eq] at hfacts
  exact ⟨l, hl, hfacts⟩

/-- The loop of `spelledTree` over an array with three items, with a body that keeps the value of
another variable. -/
theorem counted_loop_runs_over_items : ∃ l, ofNode? (ofTree (spelledTree "i" "i" "i")) = some l ∧
    (ofTree (spelledTree "i" "i" "i")).Shaped ∧
    ∃ outside P s starts s',
      Steady outside l 0 [.number 7, .truth true, .other "x"] P ∧ P s ∧
      l.Leaves P (fun t t' => t' = t.assign "last" (.number 1)) ∧
      Runs outside (ofTree (spelledTree "i" "i" "i"))
        (fun t t' => t' = t.assign "last" (.number 1)) s starts s' ∧
      starts.map (·.vars "i") = [some (.number 0), some (.number 1), some (.number 2)] ∧
      starts.map (l.element outside) =
        [some (.number 7), some (.truth true), some (.other "x")] := by
  obtain ⟨l, hl, hindex, harray⟩ := exists_ofNode?_spelledTree
  let xs : List Value := [.number 7, .truth true, .other "x"]
  let P : Store → Prop := fun s => s.vars "items" = some (.array 0) ∧ s.arrays 0 = xs
  let s : Store := ⟨fun x => if x = "items" then some (.array 0) else none, fun _ => xs⟩
  have hshape : (ofTree (spelledTree "i" "i" "i")).Shaped := by decide +kernel
  have hsteady : Steady (fun _ _ => none) l 0 xs P := by
    refine ⟨fun s hs => hs.2, fun s hs => ?_, fun s v hs => ?_⟩
    · exact ⟨s, eval_identifier _ harray hs.1, rfl, hs⟩
    · rw [hindex]
      exact ⟨(Store.vars_assign_of_ne (by decide) s v).trans hs.1, hs.2⟩
  have hleaves : l.Leaves P (fun t t' => t' = t.assign "last" (.number 1)) := by
    rintro s _ hs rfl
    rw [hindex]
    exact ⟨⟨(Store.vars_assign_of_ne (by decide) s _).trans hs.1, hs.2⟩,
      Store.vars_assign_of_ne (by decide) s _⟩
  have hs : P s := ⟨rfl, rfl⟩
  obtain ⟨-, -, -, hruns⟩ := counted_loop_runs_over_elements (fun _ _ => none) _ l hl hshape
  obtain ⟨htrace, hends⟩ := (hruns 0 xs P hsteady s hs).1 _ hleaves
  obtain ⟨starts, s', hrun⟩ := hends fun t _ => ⟨_, rfl⟩
  obtain ⟨hstarts, helements⟩ := htrace starts s' hrun
  rw [hindex] at hstarts
  exact ⟨l, hl, hshape, _, P, s, starts, s', hsteady, hs, hleaves, hrun, hstarts, helements⟩

/-! ### Arrays that change on their own -/

/-- The tree is a counted loop that ends too early: with an empty body and three elements at first,
it may end after one round. -/
def StopsEarly (t : Tree) : Prop :=
  ∃ l, ofNode? (ofTree t) = some l ∧ (ofTree t).Shaped ∧
    ∀ outside, ∃ s s₀ s₁ place starts s',
      (ofTree t).enter outside s = some s₀ ∧
      l.array.eval outside s₀ = some (.array place, s₁) ∧ (s₁.arrays place).length = 3 ∧
      Runs outside (ofTree t) (fun u u' => u' = u) s starts s' ∧
      starts.map (·.vars l.index) = [some (.number 0)]

/-- The tree of `for (let i = 0; i < m[index].length; i++) {}`. -/
def rowsTree (index : Tree) : Tree :=
  .branch .forStatement none
    [ .leaf (.other "for") none false "for", .leaf (.other "(") none false "(",
      .branch .lexicalDeclaration (some .initializer)
        [ .leaf (.other "let") (some (.other "kind")) false "let",
          .branch .variableDeclarator none
            [ .leaf .identifier (some .name) true "i", .leaf (.other "=") none false "=",
              .leaf .number (some .value) true "0" ],
          .leaf .semicolon none false ";" ],
      .branch .binary (some .condition)
        [ .leaf .identifier (some .left) true "i", .leaf .less (some .operator) false "<",
          .branch .member (some .right)
            [ .branch .subscript (some .object)
                [ .leaf .identifier (some .object) true "m", .leaf (.other "[") none false "[",
                  index, .leaf (.other "]") none false "]" ],
              .leaf (.other ".") none false ".",
              .leaf .propertyIdentifier (some .property) true "length" ] ],
      .leaf .semicolon (some .condition) false ";",
      .branch .update (some .increment)
        [ .leaf .identifier (some (.other "argument")) true "i",
          .leaf .plusPlus (some .operator) false "++" ],
      .leaf .closeParen none false ")",
      .branch (.other "statement_block") (some .body)
        [.leaf (.other "\x7b") none false "\x7b", .leaf (.other "\x7d") none false "\x7d"] ]

/-- The index `i`. -/
def plainIndex : Tree :=
  .leaf .identifier (some .index) true "i"

/-- The index `j++`. -/
def steppedIndex : Tree :=
  .branch .update (some .index)
    [ .leaf .identifier (some (.other "argument")) true "j",
      .leaf .plusPlus (some .operator) false "++" ]

/-- Two rows, of three numbers and of one. -/
def rowsStore : Store where
  vars x := if x = "m" then some (.array 0) else if x = "j" then some (.number 0) else none
  arrays place :=
    match place with
    | 0 => [.array 1, .array 2]
    | 1 => [.number 7, .number 8, .number 9]
    | _ => [.number 7]

/-- A test of the array of a header that is recognised. -/
lemma exists_array_of_any {t : Tree} {p : Node → Bool}
    (h : (ofNode? (ofTree t)).any (fun l => l.index == "i" && (l.array.kind == .subscript &&
      (l.array.childIs .object (·.isIdentifier "m") && l.array.childIs .index p))) = true) :
    ∃ l x y, ofNode? (ofTree t) = some l ∧ l.index = "i" ∧ l.array.kind = .subscript ∧
      l.array.child? .object = some x ∧ x.isIdentifier "m" = true ∧
      l.array.child? .index = some y ∧ p y = true := by
  obtain ⟨l, hl, hfacts⟩ := (Option.any_eq_true _ _).mp h
  simp only [Bool.and_eq_true, beq_iff_eq, childIs_eq_true_iff] at hfacts
  obtain ⟨hindex, hkind, ⟨x, hx, hm⟩, y, hy, hp⟩ := hfacts
  exact ⟨l, x, y, hl, hindex, hkind, hx, hm, hy, hp⟩

/-- A loop ends after one round if the array has three elements at first and one the next time. -/
lemma stopsEarly_of_eval {t : Tree} (hl : ofNode? (ofTree t) = some l) (hshape : (ofTree t).Shaped)
    (h : ∀ outside, ∃ (s s₁ s₂ : Store) (place place' : Nat),
      l.array.eval outside (s.assign l.index (.number 0)) = some (.array place, s₁) ∧
      (s₁.arrays place).length = 3 ∧ s₁.vars l.index = some (.number 0) ∧
      l.array.eval outside (s₁.assign l.index (.number 1)) = some (.array place', s₂) ∧
      (s₂.arrays place').length = 1) :
    StopsEarly t := by
  refine ⟨l, hl, hshape, fun outside => ?_⟩
  obtain ⟨s, s₁, s₂, place, place', hfirst, hthree, hzero, hsecond, hone⟩ := h outside
  have htest : (ofTree t).test outside (s.assign l.index (.number 0)) = some (true, s₁) := by
    rw [test_eq hl (Store.vars_assign_self _ _ _) hfirst, hthree]
    rfl
  have hstop : (ofTree t).test outside (s₁.assign l.index (.number 1)) = some (false, s₂) := by
    rw [test_eq hl (Store.vars_assign_self _ _ _) hsecond, hone]
    rfl
  have hstep : (ofTree t).advance outside s₁ = some (s₁.assign l.index (.number 1)) :=
    advance_eq hl hshape hzero
  have henter : (ofTree t).enter outside s = some (s.assign l.index (.number 0)) :=
    enter_eq hl hshape s
  refine ⟨s, _, s₁, place, [s₁], s₂, henter, hfirst, hthree, ⟨_, henter, ?_⟩, ?_⟩
  · exact .round htest rfl hstep (.stop hstop)
  · rw [List.map_singleton, hzero]

/-- The array of a header that is recognised may depend on the index, as in `m[i]`, or change when
it is evaluated, as in `m[j++]`.  Then the loop may end early, although its body does nothing. -/
theorem counted_loop_stops_early :
    StopsEarly (rowsTree plainIndex) ∧ StopsEarly (rowsTree steppedIndex) := by
  constructor
  · obtain ⟨l, x, y, hl, hindex, hkind, hx, hm, hy, hi⟩ :=
      @exists_array_of_any (rowsTree plainIndex) (·.isIdentifier "i") (by decide +kernel)
    refine stopsEarly_of_eval hl (by decide +kernel) fun outside => ?_
    have hrow : ∀ k place : Nat, (rowsStore.arrays 0)[k]? = some (.array place) →
        l.array.eval outside (rowsStore.assign l.index (.number k)) =
          some (.array place, rowsStore.assign l.index (.number k)) := by
      intro k place hplace
      rw [hindex]
      exact eval_element outside hkind hx hy (eval_identifier outside hm rfl)
        (eval_identifier outside hi (Store.vars_assign_self _ _ _)) hplace
    refine ⟨rowsStore, rowsStore.assign l.index (.number 0), rowsStore.assign l.index (.number 1),
      1, 2, hrow 0 1 rfl, rfl, Store.vars_assign_self _ _ _, ?_, rfl⟩
    rw [Store.assign_assign]
    exact hrow 1 2 rfl
  · obtain ⟨l, x, y, hl, hindex, hkind, hx, hm, hy, hp⟩ :=
      @exists_array_of_any (rowsTree steppedIndex) (fun y => y.kind == .update &&
        (y.childIs (.other "argument") (·.isIdentifier "j") &&
          (y.childIs .operator (fun o => o.kind == .plusPlus) && !y.signFirst))) (by decide +kernel)
    simp only [Bool.and_eq_true, beq_iff_eq, childIs_eq_true_iff, Bool.not_eq_true'] at hp
    obtain ⟨hupdate, ⟨z, hz, hj⟩, ⟨sign, hsign, hplus⟩, hafter⟩ := hp
    refine stopsEarly_of_eval hl (by decide +kernel) fun outside => ?_
    have hrow : ∀ (k place : Nat) (s : Store), s.vars "m" = some (.array 0) →
        s.vars "j" = some (.number k) → (s.arrays 0)[k]? = some (.array place) →
        l.array.eval outside s = some (.array place, s.assign "j" (.number (k + 1))) := by
      intro k place s hs hk hplace
      obtain ⟨hname, htext⟩ := isIdentifier_eq_true_iff.mp hj
      have hindexValue := eval_update outside hupdate hz hsign hname hplus (htext ▸ hk)
      rw [hafter, htext] at hindexValue
      exact eval_element outside hkind hx hy (eval_identifier outside hm hs) hindexValue hplace
    rw [hindex]
    refine ⟨rowsStore, _, _, 1, 2, hrow 0 1 _ rfl rfl rfl, rfl, rfl, hrow 1 2 _ rfl rfl rfl, rfl⟩

end CountedLoop
end LoopLint
