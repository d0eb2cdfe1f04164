import LoopLint.Loop.Counted
import LoopLint.Proofs.Syntax.Grammar
import LoopLint.Proofs.Syntax.Grouping

/-!
# How the header of a counted loop can be spelled

A header that counts through an array is spelled in many ways: with any keyword for the declaration,
with or without a type for the index, with five steps, with the array in any number of parentheses,
and with comments anywhere.  `Node.Spells` lists them.  It has a name for the index in each of the
three clauses; the header is recognised exactly if these are one name, and then with this index and
with the array out of all its parentheses (`CountedLoop.ofNode?_of_spells`).

Comments are left out of account once: the tests for the parts of a node look at its constituents
only, which are the children without comments (`Node.child?_eq`, `Node.namedChildren_eq`,
`Node.hasChild_eq`).
-/

namespace LoopLint

namespace Node

variable {n c x : Node} {f : Field}

/-- The children of a node without the comments that are no parts of it. -/
def constituents (n : Node) : List Node :=
  n.children.filter fun c => !(c.kind.isComment && c.label.field.isNone)

/-- The parts of a node are found among its constituents. -/
lemma child?_eq (n : Node) (f : Field) :
    n.child? f = n.constituents.find? (fun c => c.label.field == some f) := by
  rw [child?, constituents, List.find?_filter]
  refine congrArg (fun p => n.children.find? p) (funext fun c => ?_)
  rw [Bool.eq_iff_iff]
  cases c.label.field <;> simp

/-- The named children of a node are found among its constituents. -/
lemma namedChildren_eq (n : Node) :
    n.namedChildren = n.constituents.filter (fun c => c.label.named && !c.kind.isComment) := by
  rw [namedChildren, constituents, List.filter_filter]
  refine congrArg (fun p => n.children.filter p) (funext fun c => ?_)
  cases c.kind.isComment <;> simp

/-- Whatever is no comment is found among the constituents. -/
lemma hasChild_eq (n : Node) {k : Kind} (hk : k.isComment = false) :
    n.hasChild k = n.constituents.any (fun c => c.kind == k) := by
  rw [hasChild, constituents, List.any_filter]
  refine congrArg (fun p => n.children.any p) (funext fun c => ?_)
  by_cases hc : c.kind = k
  · simp [hc, hk]
  · simp [hc]

/-- A part of a node is the first constituent in its field. -/
lemma child?_of_row (before : List Node) {rest : List Node}
    (hrow : n.constituents = before ++ c :: rest) (hbefore : ∀ b ∈ before, b.label.field ≠ some f)
    (hc : c.label.field = some f) : n.child? f = some c := by
  have hnone : before.find? (fun b => b.label.field == some f) = none := by
    rw [List.find?_eq_none]
    intro b hb
    rw [beq_iff_eq]
    exact hbefore b hb
  rw [child?_eq, hrow, List.find?_append, hnone, Option.none_or,
    List.find?_cons_of_pos (by rw [hc, beq_self_eq_true])]

/-! ### The pieces -/

/-- A keyword or a sign. -/
structure IsSign (n : Node) (k : Kind) (f : Option Field) : Prop where
  kind : n.kind = k
  field : n.label.field = f
  named : n.label.named = false

/-- An identifier or a number. -/
structure IsWord (n : Node) (k : Kind) (text : String) (f : Option Field) : Prop where
  kind : n.kind = k
  text : n.text = text
  field : n.label.field = f
  named : n.label.named = true

/-- `d` declares `i = 0`, with or without a type. -/
inductive Declares (d : Node) (i : String) : Prop
  | mk {name sign value : Node} (ascription : List Node) (hd : d.kind = .variableDeclarator)
      (hnamed : d.label.named = true)
      (hrow : d.constituents = [name] ++ ascription ++ [sign, value])
      (hname : name.IsWord .identifier i (some .name))
      (hascription : ascription.length ≤ 1 ∧
        ∀ a ∈ ascription, a.kind = .typeAscription ∧ a.label.field = some (.other "type"))
      (hsign : sign.IsSign (.other "=") none) (hvalue : value.IsWord .number "0" (some .value))

/-- `d` is `let i = 0`, or the same with another keyword. -/
inductive Initializes (d : Node) (i : String) : Prop
  | mk {keyword declarator semicolon : Node}
      (hd : d.kind = .lexicalDeclaration ∨ d.kind = .variableDeclaration)
      (hrow : d.constituents = [keyword, declarator, semicolon])
      (hkeyword : keyword.label.named = false) (hdeclarator : declarator.Declares i)
      (hsemicolon : semicolon.label.named = false)

/-- `o` is `a` in `k` pairs of parentheses. -/
inductive Encloses (a : Node) : Nat → Node → Prop
  | bare : Encloses a 0 a
  | parens {k : Nat} {p left inner right : Node} (hp : p.kind = .parenthesized)
      (hnamed : p.label.named = true) (hrow : p.constituents = [left, inner, right])
      (hleft : left.IsSign (.other "(") none) (hright : right.IsSign .closeParen none)
      (h : Encloses a k inner) : Encloses a (k + 1) p

/-- `c` is `i < array.length`, with the array in `k` pairs of parentheses. -/
inductive Compares (c : Node) (i : String) (k : Nat) (array : Node) : Prop
  | mk {left sign limit object dot property : Node} (hc : c.kind = .binary)
      (hrow : c.constituents = [left, sign, limit])
      (hleft : left.IsWord .identifier i (some .left)) (hsign : sign.IsSign .less (some .operator))
      (hlimit : limit.kind = .member ∧ limit.label.field = some .right)
      (hlimitRow : limit.constituents = [object, dot, property])
      (hobject : object.label.field = some .object) (harray : array.Encloses k object)
      (hdot : dot.IsSign (.other ".") none)
      (hproperty : property.IsWord .propertyIdentifier "length" (some .property))

/-- `c` is the condition `i < array.length`, as an expression or as a statement. -/
inductive Bounds (c : Node) (i : String) (k : Nat) (array : Node) : Prop
  | expression (h : c.Compares i k array)
  | statement {e semicolon : Node} (hc : c.kind = .expressionStatement)
      (hrow : c.constituents = [e, semicolon]) (hnamed : e.label.named = true)
      (h : e.Compares i k array) (hsemicolon : semicolon.label.named = false)

/-- `s` is one of `i++`, `++i`, `i += 1`, `i = i + 1` and `i = 1 + i`. -/
inductive Steps (s : Node) (i : String) : Prop
  | update {x sign : Node} {f g : Option Field} (hs : s.kind = .update)
      (hrow : s.constituents = [x, sign] ∨ s.constituents = [sign, x])
      (hx : x.IsWord .identifier i f) (hsign : sign.IsSign .plusPlus g)
  | add {x sign one : Node} (hs : s.kind = .augmentedAssignment)
      (hrow : s.constituents = [x, sign, one]) (hx : x.IsWord .identifier i (some .left))
      (hsign : sign.IsSign .plusAssign (some .operator))
      (hone : one.IsWord .number "1" (some .right))
  | assign {x sign sum y plus z : Node} (hs : s.kind = .assignment)
      (hrow : s.constituents = [x, sign, sum]) (hx : x.IsWord .identifier i (some .left))
      (hsign : sign.IsSign (.other "=") none)
      (hsum : sum.kind = .binary ∧ sum.label.field = some .right)
      (hsumRow : sum.constituents = [y, plus, z]) (hplus : plus.IsSign .plus (some .operator))
      (h : y.IsWord .identifier i (some .left) ∧ z.IsWord .number "1" (some .right) ∨
        y.IsWord .number "1" (some .left) ∧ z.IsWord .identifier i (some .right))

/-- `n` is a `for` statement that declares the index `i`, compares `j` and steps `l`.  A condition
that is no statement has a semicolon behind it. -/
inductive Spells (n : Node) (i j l : String) (k : Nat) (array body : Node) : Prop
  | mk {word left initializer condition step right : Node} (semicolon : List Node)
      (hn : n.kind = .forStatement)
      (hrow : n.constituents =
        [word, left, initializer, condition] ++ semicolon ++ [step, right, body])
      (hword : word.IsSign (.other "for") none) (hleft : left.IsSign (.other "(") none)
      (hinitializer : initializer.Initializes i ∧ initializer.label.field = some .initializer)
      (hcondition : condition.Bounds j k array ∧ condition.label.field = some .condition)
      (hsemicolon : ∀ s ∈ semicolon,
        s.IsSign .semicolon none ∨ s.IsSign .semicolon (some .condition))
      (hstep : step.Steps l ∧ step.label.field = some .increment)
      (hright : right.IsSign .closeParen none) (hbody : body.label.field = some .body)

/-! ### The pieces are recognised -/

/-- A word can stand in parentheses. -/
lemma IsWord.isContent {k : Kind} {v : String} {f : Option Field} (h : x.IsWord k v f)
    (hk : k.isComment = false) : x.focus.isContent = true :=
  isContent_of_named h.named (h.kind ▸ hk)

/-- An identifier names the index if it has its text. -/
lemma IsWord.isIdentifier_iff {i j : String} {f : Option Field} (h : x.IsWord .identifier i f) :
    x.isIdentifier j = true ↔ i = j := by
  simp [isIdentifier, h.kind, h.text]

/-- A numeral is the number that it spells. -/
lemma IsWord.isNumber_eq_true {v : String} {f : Option Field} (h : x.IsWord .number v f) :
    x.isNumber v = true := by
  simp [isNumber, h.kind, h.text]

/-- A numeral names no index. -/
lemma IsWord.isIdentifier_eq_false {v i : String} {f : Option Field} (h : x.IsWord .number v f) :
    x.isIdentifier i = false := by
  simp [isIdentifier, h.kind]

/-- A symbol cannot stand in parentheses by itself. -/
lemma IsSign.isContent {k : Kind} {f : Option Field} (h : x.IsSign k f) :
    x.focus.isContent = false := by
  have hnamed : x.focus.label.named = false := h.named
  rw [Tree.isContent, hnamed, Bool.false_and]

/-- What is no content is passed over on the way to the first named child. -/
lemma head?_namedChildren_of_row (signs : List Node) {rest : List Node}
    (hrow : n.constituents = signs ++ c :: rest) (hsigns : ∀ s ∈ signs, s.focus.isContent = false)
    (hc : c.focus.isContent = true) : n.namedChildren.head? = some c := by
  have hnil : signs.filter (·.focus.isContent) = [] := by
    rw [List.filter_eq_nil_iff]
    intro s hs
    rw [hsigns s hs]
    exact Bool.false_ne_true
  have hnamed : n.namedChildren = n.constituents.filter (·.focus.isContent) := namedChildren_eq n
  rw [hnamed, hrow, List.filter_append, hnil, List.nil_append, List.filter_cons, if_pos hc,
    List.head?_cons]

/-- What can stand in parentheses still can when it is in some. -/
lemma Encloses.isContent {a o : Node} {k : Nat} (h : a.Encloses k o)
    (ha : a.focus.isContent = true) : o.focus.isContent = true := by
  cases h with
  | bare => exact ha
  | parens hp hnamed => exact isContent_of_named hnamed (by rw [hp]; rfl)

/-- All parentheses around the array are taken away. -/
lemma Encloses.unwrap_eq {a o : Node} {k : Nat} (h : a.Encloses k o)
    (ha : a.focus.isContent = true) (hparens : a.kind ≠ .parenthesized) : o.unwrap = a := by
  induction h with
  | bare => rw [Node.unwrap_eq, if_neg hparens]
  | @parens k p left inner right hp hnamed hrow hleft hright h ih =>
    have hinner : p.namedChildren.head? = some inner :=
      head?_namedChildren_of_row [left] hrow (by simp [hleft.isContent]) (h.isContent ha)
    rw [Node.unwrap_eq, if_pos hp, hinner]
    exact ih

end Node

namespace CountedLoop

open Node

variable {n c d s array body : Node} {i j l : String} {k : Nat}

/-- What is declared, and that it is set to zero. -/
lemma parts_of_declares (h : d.Declares i) :
    (∃ name, d.child? .name = some name ∧ name.kind = .identifier ∧ name.text = i) ∧
      d.childIs .value (·.isNumber "0") = true := by
  cases h with
  | @mk name sign value ascription hd hnamed hrow hname hascription hsign hvalue =>
    have hnamePart : d.child? .name = some name := child?_of_row [] hrow (by simp) hname.field
    have hvaluePart : d.child? .value = some value := by
      have hvalueRow : d.constituents = ([name] ++ ascription ++ [sign]) ++ value :: [] := by
        rw [hrow, List.append_assoc _ [sign]]
        rfl
      refine child?_of_row _ hvalueRow ?_ hvalue.field
      intro b hb
      simp only [List.mem_append, List.mem_singleton] at hb
      rcases hb with (rfl | hb) | rfl
      · simp [hname.field]
      · simp [(hascription.2 b hb).2]
      · simp [hsign.field]
    exact ⟨⟨name, hnamePart, hname.kind, hname.text⟩,
      childIs_eq_true_iff.mpr ⟨value, hvaluePart, hvalue.isNumber_eq_true⟩⟩

/-- A declaration that is spelled as one sets its index to zero. -/
lemma zeroIndex?_of_initializes (h : d.Initializes i) : zeroIndex? d = some i := by
  cases h with
  | @mk keyword declarator semicolon hd hrow hkeyword hdeclarator hsemicolon =>
    have hkind : declarator.kind = .variableDeclarator ∧ declarator.label.named = true := by
      cases hdeclarator with
      | mk _ hkind hnamed => exact ⟨hkind, hnamed⟩
    have hdeclarators : d.namedChildren.filter (fun c => c.kind == .variableDeclarator) =
        [declarator] := by
      rw [namedChildren_eq, hrow]
      simp [hkeyword, hsemicolon, hkind, Kind.isComment]
    obtain ⟨⟨name, hname, hidentifier, htext⟩, hzero⟩ := parts_of_declares hdeclarator
    rw [zeroIndex?, if_pos hd, hdeclarators]
    simp [hzero, hname, hidentifier, htext]

/-- A sum is the successor of its own index only. -/
lemma isSuccessor_iff_of_row {sum y plus z : Node} (hsum : sum.kind = .binary)
    (hrow : sum.constituents = [y, plus, z]) (hplus : plus.IsSign .plus (some .operator))
    (hterms : y.IsWord .identifier l (some .left) ∧ z.IsWord .number "1" (some .right) ∨
      y.IsWord .number "1" (some .left) ∧ z.IsWord .identifier l (some .right)) :
    isSuccessor sum i = true ↔ l = i := by
  have hfields : y.label.field = some .left ∧ z.label.field = some .right := by
    rcases hterms with ⟨hy, hz⟩ | ⟨hy, hz⟩
    · exact ⟨hy.field, hz.field⟩
    · exact ⟨hy.field, hz.field⟩
  have hleft : sum.child? .left = some y := child?_of_row [] hrow (by simp) hfields.1
  have hoperator : sum.child? .operator = some plus :=
    child?_of_row [y] hrow (by simp [hfields.1]) hplus.field
  have hright : sum.child? .right = some z :=
    child?_of_row [y, plus] hrow (by simp [hfields.1, hplus.field]) hfields.2
  rcases hterms with ⟨hy, hz⟩ | ⟨hy, hz⟩
  · simp [isSuccessor, hsum, childIs, hleft, hoperator, hright, hplus.kind, hy.isIdentifier_iff,
      hz.isNumber_eq_true, hz.isIdentifier_eq_false]
  · simp [isSuccessor, hsum, childIs, hleft, hoperator, hright, hplus.kind, hz.isIdentifier_iff,
      hy.isNumber_eq_true, hy.isIdentifier_eq_false]

/-- A step is recognised for its own index only. -/
lemma isIncrement_iff_of_steps (h : s.Steps l) : isIncrement s i = true ↔ l = i := by
  cases h with
  | @update x sign _ _ hs hrow hx hsign =>
    have hfirst : s.namedChildren.head? = some x := by
      rcases hrow with hrow | hrow
      · exact head?_namedChildren_of_row [] hrow (by simp) (hx.isContent rfl)
      · exact head?_namedChildren_of_row [sign] hrow (by simp [hsign.isContent]) (hx.isContent rfl)
    have hplus : s.hasChild .plusPlus = true := by
      rw [hasChild_eq s rfl]
      rcases hrow with hrow | hrow <;> simp [hrow, hsign.kind]
    simp [isIncrement, hs, hplus, hfirst, hx.isIdentifier_iff]
  | @add x sign one hs hrow hx hsign hone =>
    have hleft : s.child? .left = some x := child?_of_row [] hrow (by simp) hx.field
    have hoperator : s.child? .operator = some sign :=
      child?_of_row [x] hrow (by simp [hx.field]) hsign.field
    have hright : s.child? .right = some one :=
      child?_of_row [x, sign] hrow (by simp [hx.field, hsign.field]) hone.field
    simp [isIncrement, hs, childIs, hleft, hoperator, hright, hx.isIdentifier_iff, hsign.kind,
      hone.isNumber_eq_true]
  | @assign x sign sum y plus z hs hrow hx hsign hsum hsumRow hplus hterms =>
    have hleft : s.child? .left = some x := child?_of_row [] hrow (by simp) hx.field
    have hright : s.child? .right = some sum :=
      child?_of_row [x, sign] hrow (by simp [hx.field, hsign.field]) hsum.2
    have hsuccessor := isSuccessor_iff_of_row (i := i) hsum.1 hsumRow hplus hterms
    simp [isIncrement, hs, childIs, hleft, hright, hx.isIdentifier_iff, hsuccessor]

/-- A condition is recognised for its own index only, with the array out of all its parentheses. -/
lemma bound?_of_compares (h : c.Compares j k array) (harray : array.focus.isContent = true)
    (hparens : array.kind ≠ .parenthesized) :
    bound? c i = if j = i then some array else none := by
  cases h with
  | @mk left sign limit object dot property hc hrow hleft hsign hlimit hlimitRow hobject hencloses
      hdot hproperty =>
    have hleftPart : c.child? .left = some left := child?_of_row [] hrow (by simp) hleft.field
    have hoperator : c.child? .operator = some sign :=
      child?_of_row [left] hrow (by simp [hleft.field]) hsign.field
    have hright : c.child? .right = some limit :=
      child?_of_row [left, sign] hrow (by simp [hleft.field, hsign.field]) hlimit.2
    have hobjectPart : limit.child? .object = some object :=
      child?_of_row [] hlimitRow (by simp) hobject
    have hlength : limit.childIs .property isLengthName = true := by
      have hpart : limit.child? .property = some property :=
        child?_of_row [object, dot] hlimitRow (by simp [hobject, hdot.field]) hproperty.field
      simp [childIs, hpart, isLengthName, hproperty.kind, hproperty.text]
    have hcondition : (c.kind = .binary ∧ c.childIs .operator (fun o => o.kind == .less) ∧
        c.childIs .left (·.isIdentifier i)) ↔ j = i := by
      simp [hc, childIs, hoperator, hsign.kind, hleftPart, hleft.isIdentifier_iff]
    have hpart : (c.child? .right).bind (fun limit =>
        if limit.kind = .member ∧ limit.childIs .property isLengthName then
          (limit.child? .object).map (·.unwrap)
        else none) = some array := by
      rw [hright, Option.bind_some, if_pos ⟨hlimit.1, hlength⟩, hobjectPart, Option.map_some,
        hencloses.unwrap_eq harray hparens]
    simp only [bound?, hcondition, hpart]

/-- A condition is looked for in its expression, a statement or not. -/
lemma clause?_of_bounds {f : Field} (hc : n.child? f = some c) (h : c.Bounds j k array) :
    ∃ e, clause? n f = some e ∧ e.Compares j k array := by
  cases h with
  | expression h =>
    have hkind : c.kind = .binary := by cases h; assumption
    refine ⟨c, ?_, h⟩
    simp [clause?, hc, hkind]
  | @statement e semicolon hkind hrow hnamed h hsemicolon =>
    have hbinary : e.kind = .binary := by cases h; assumption
    have hcontent : e.focus.isContent = true := isContent_of_named hnamed (by rw [hbinary]; rfl)
    refine ⟨e, ?_, h⟩
    simp [clause?, hc, hkind, head?_namedChildren_of_row [] hrow (by simp) hcontent]

/-- An increment that is spelled as one is the clause of its header. -/
lemma clause?_of_steps {f : Field} (hs : n.child? f = some s) (h : s.Steps l) :
    clause? n f = some s := by
  have hkind : s.kind = .update ∨ s.kind = .augmentedAssignment ∨ s.kind = .assignment := by
    cases h with
    | update hs => exact .inl hs
    | add hs => exact .inr (.inl hs)
    | assign hs => exact .inr (.inr hs)
  rcases hkind with hkind | hkind | hkind <;> simp [clause?, hs, hkind]

/-- The parts of a header, with comments or without. -/
lemma parts_of_spells (h : n.Spells i j l k array body) :
    n.kind = .forStatement ∧ n.child? .body = some body ∧
      ∃ initializer condition step, n.child? .initializer = some initializer ∧
        clause? n .condition = some condition ∧ clause? n .increment = some step ∧
        initializer.Initializes i ∧ condition.Compares j k array ∧ step.Steps l := by
  cases h with
  | @mk word left initializer condition step right semicolon hn hrow hword hleft hinitializer
      hcondition hsemicolon hstep hright hbody =>
    -- What stands before the step is in one of two fields or in none.
    have hbefore : ∀ b ∈ [word, left, initializer, condition] ++ semicolon,
        b.label.field = none ∨ b.label.field = some .initializer ∨
          b.label.field = some .condition := by
      intro b hb
      rcases List.mem_append.mp hb with hb | hb
      · simp only [List.mem_cons, List.not_mem_nil, or_false] at hb
        rcases hb with rfl | rfl | rfl | rfl
        · exact .inl hword.field
        · exact .inl hleft.field
        · exact .inr (.inl hinitializer.2)
        · exact .inr (.inr hcondition.2)
      · rcases hsemicolon b hb with h | h
        · exact .inl h.field
        · exact .inr (.inr h.field)
    have hinitializerPart : n.child? .initializer = some initializer :=
      child?_of_row [word, left] hrow (by simp [hword.field, hleft.field]) hinitializer.2
    have hconditionPart : n.child? .condition = some condition :=
      child?_of_row [word, left, initializer] hrow
        (by simp [hword.field, hleft.field, hinitializer.2]) hcondition.2
    have hstepPart : n.child? .increment = some step := by
      refine child?_of_row _ hrow ?_ hstep.2
      intro b hb
      rcases hbefore b hb with h | h | h <;> simp [h]
    have hbodyPart : n.child? .body = some body := by
      have hbodyRow : n.constituents =
          ([word, left, initializer, condition] ++ semicolon ++ [step, right]) ++ body :: [] := by
        rw [hrow, List.append_assoc _ [step, right]]
        rfl
      refine child?_of_row _ hbodyRow ?_ hbody
      intro b hb
      rcases List.mem_append.mp hb with hb | hb
      · rcases hbefore b hb with h | h | h <;> simp [h]
      · simp only [List.mem_cons, List.not_mem_nil, or_false] at hb
        rcases hb with rfl | rfl
        · simp [hstep.2]
        · simp [hright.field]
    obtain ⟨e, he, hcompares⟩ := clause?_of_bounds hconditionPart hcondition.1
    exact ⟨hn, hbodyPart, initializer, e, step, hinitializerPart, he,
      clause?_of_steps hstepPart hstep.1, hinitializer.1, hcompares, hstep.1⟩

/-- However a header is spelled, with comments anywhere and with the array in any number of
parentheses: if its clauses are about one index, then it is recognised with this index and with the
array itself, and otherwise it is no header of a counted loop. -/
theorem ofNode?_of_spells (h : n.Spells i j l k array body) (hnamed : array.label.named = true)
    (hcomment : array.kind.isComment = false) (hparens : array.kind ≠ .parenthesized) :
    ofNode? n = if i = j ∧ i = l then some ⟨n, i, array, body⟩ else none := by
  have hcontent : array.focus.isContent = true := isContent_of_named hnamed hcomment
  obtain ⟨hn, hbody, initializer, condition, step, hinitializer, hcondition, hstep, hdeclares,
    hcompares, hsteps⟩ := parts_of_spells h
  have hbound := @bound?_of_compares _ _ i _ _ hcompares hcontent hparens
  rw [ofNode?, if_pos hn, hinitializer, hcondition, hstep]
  simp only [Option.bind_eq_bind, Option.bind_some, zeroIndex?_of_initializes hdeclares, hbound,
    isIncrement_iff_of_steps hsteps, hbody]
  by_cases hj : j = i
  · by_cases hl : l = i
    · simp [hj, hl]
    · simp [hl, Ne.symm hl]
  · simp [hj, Ne.symm hj]

/-- A comment. -/
def note : Tree := .leaf .comment none true "/* c */"

/-- The tree of `for (let i: number = 0; j < ((items)).length; l = 1 + l) {}`, with comments. -/
def spelledTree (i j l : String) : Tree :=
  .branch .forStatement none
    [ .leaf (.other "for") none false "for", note, .leaf (.other "(") none false "(",
      .branch .lexicalDeclaration (some .initializer)
        [ .leaf (.other "let") (some (.other "kind")) false "let", note,
          .branch .variableDeclarator none
            [ .leaf .identifier (some .name) true i,
              .branch .typeAscription (some (.other "type"))
                [ .leaf (.other ":") none false ":",
                  .leaf (.other "predefined_type") none true "number" ],
              note, .leaf (.other "=") none false "=", .leaf .number (some .value) true "0" ],
          .leaf .semicolon none false ";" ],
      .branch .binary (some .condition)
        [ .leaf .identifier (some .left) true j, note, .leaf .less (some .operator) false "<",
          .branch .member (some .right)
            [ .branch .parenthesized (some .object)
                [ .leaf (.other "(") none false "(", note,
                  .branch .parenthesized none
                    [ .leaf (.other "(") none false "(", .leaf .identifier none true "items", note,
                      .leaf .closeParen none false ")" ],
                  .leaf .closeParen none false ")" ],
              note, .leaf (.other ".") none false ".",
              .leaf .propertyIdentifier (some .property) true "length" ] ],
      .leaf .semicolon (some .condition) false ";", note,
      .branch .assignment (some .increment)
        [ .leaf .identifier (some .left) true l, .leaf (.other "=") none false "=",
          .branch .binary (some .right)
            [ .leaf .number (some .left) true "1", note, .leaf .plus (some .operator) false "+",
              .leaf .identifier (some .right) true l ] ],
      .leaf .closeParen none false ")", note,
      .branch (.other "statement_block") (some .body)
        [.leaf (.other "\x7b") none false "\x7b", .leaf (.other "\x7d") none false "\x7d"] ]

/-- The sample is spelled as a header, with its array in two pairs of parentheses. -/
lemma spells_spelledTree (i j l : String) : ∃ array body,
    (ofTree (spelledTree i j l)).Spells i j l 2 array body ∧ array.label.named = true ∧
      array.kind = .identifier ∧ array.text = "items" :=
  ⟨_, _, .mk [_] rfl rfl ⟨rfl, rfl, rfl⟩ ⟨rfl, rfl, rfl⟩
    ⟨.mk (.inl rfl) rfl rfl
      (.mk [_] rfl rfl rfl ⟨rfl, rfl, rfl, rfl⟩
        ⟨Nat.le_refl 1, List.forall_mem_singleton.mpr ⟨rfl, rfl⟩⟩ ⟨rfl, rfl, rfl⟩
        ⟨rfl, rfl, rfl, rfl⟩) rfl, rfl⟩
    ⟨.expression
      (.mk rfl rfl ⟨rfl, rfl, rfl, rfl⟩ ⟨rfl, rfl, rfl⟩ ⟨rfl, rfl⟩ rfl rfl
        (.parens rfl rfl rfl ⟨rfl, rfl, rfl⟩ ⟨rfl, rfl, rfl⟩
          (.parens rfl rfl rfl ⟨rfl, rfl, rfl⟩ ⟨rfl, rfl, rfl⟩ .bare))
        ⟨rfl, rfl, rfl⟩ ⟨rfl, rfl, rfl, rfl⟩), rfl⟩
    (List.forall_mem_singleton.mpr (.inr ⟨rfl, rfl, rfl⟩))
    ⟨.assign rfl rfl ⟨rfl, rfl, rfl, rfl⟩ ⟨rfl, rfl, rfl⟩ ⟨rfl, rfl⟩ rfl ⟨rfl, rfl, rfl⟩
      (.inr ⟨⟨rfl, rfl, rfl, rfl⟩, ⟨rfl, rfl, rfl, rfl⟩⟩), rfl⟩
    ⟨rfl, rfl, rfl⟩ rfl, rfl, rfl, rfl⟩

/-- The header of `spelledTree` is recognised with one index, and not if the step has another. -/
theorem ofNode?_spelledTree :
    (∃ array body, (ofTree (spelledTree "i" "i" "i")).Spells "i" "i" "i" 2 array body ∧
      array.kind = .identifier ∧ array.text = "items" ∧
      ofNode? (ofTree (spelledTree "i" "i" "i")) =
        some ⟨ofTree (spelledTree "i" "i" "i"), "i", array, body⟩) ∧
    ofNode? (ofTree (spelledTree "i" "i" "j")) = none := by
  constructor
  · obtain ⟨array, body, hspells, hnamed, hkind, htext⟩ := spells_spelledTree "i" "i" "i"
    refine ⟨array, body, hspells, hkind, htext, ?_⟩
    exact ofNode?_of_spells hspells hnamed (by rw [hkind]; rfl) (hkind.trans_ne (by decide))
  · obtain ⟨array, body, hspells, hnamed, hkind, -⟩ := spells_spelledTree "i" "i" "j"
    exact ofNode?_of_spells hspells hnamed (by rw [hkind]; rfl) (hkind.trans_ne (by decide))

end CountedLoop
end LoopLint
