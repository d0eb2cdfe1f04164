import LoopLint.Proofs.Loop.Overlooked

/-!
# Loops that write their elements

A loop that writes to an element of its array cannot be a `for … of` loop.  What counts as writing
is said here once from the outside: some nodes write what stands in one of their places
(`Node.Writes`), and an expression may wear wrappers on its way to such a place (`Node.Written`).

The checker looks through grouping parentheses only.  A loop is therefore never reported when it
writes an element that wears nothing else (`reported_iff_elements_not_written`); but TypeScript has
wrappers of its own, which say something about the type of an expression and leave the expression
what it is, and behind these a write is missed (`reported_with_asserted_write`).
-/

namespace LoopLint

variable {n m r c p : Node} {l k : CountedLoop}

/-- Grouping parentheses. -/
def Kind.isGrouping (k : Kind) : Bool :=
  k == .parenthesized

/-- What TypeScript lets one say about the type of an expression: `x!`, `x as T`, `x satisfies T`
and `<T>x`. -/
def Kind.isAssertion : Kind → Bool
  | .other name =>
    ["non_null_expression", "as_expression", "satisfies_expression", "type_assertion"].contains name
  | _ => false

/-- The wrappers that denote what they wrap. -/
def Kind.isTransparent (k : Kind) : Bool :=
  k.isGrouping || k.isAssertion

namespace Node

/-- The node `p` writes its child: it assigns to it, updates it, deletes it, or binds it. -/
inductive Writes (p : Node) : Node → Prop
  /-- The left side of `=`, `+=` and so on. -/
  | assignment {c : Node} (hp : p.kind = .assignment ∨ p.kind = .augmentedAssignment)
      (hc : p.child? .left = some c) : Writes p c
  /-- The operand of `++` and `--`. -/
  | update {c : Node} (hp : p.kind = .update) (hc : c ∈ p.children) : Writes p c
  /-- The operand of `delete`. -/
  | delete {c d : Node} (hp : p.kind = .unary) (hd : d ∈ p.children) (hk : d.kind = .deleteWord)
      (hc : c ∈ p.children) : Writes p c
  /-- An element of `[…] = x`, and what is behind `...` in a pattern. -/
  | element {c : Node} (hp : p.kind = .arrayPattern ∨ p.kind = .restPattern)
      (hc : c ∈ p.children) : Writes p c
  /-- The value of an entry of `{…} = x`. -/
  | entry {c : Node} (hp : p.kind = .pairPattern) (hc : p.child? .value = some c) : Writes p c
  /-- What gets a default in a pattern. -/
  | default {c : Node} (hp : p.kind = .assignmentPattern ∨ p.kind = .objectAssignmentPattern)
      (hc : p.child? .left = some c) : Writes p c
  /-- What a `for … of` or `for … in` loop assigns to. -/
  | iteration {c : Node} (hp : p.kind = .forInStatement) (hc : p.child? .left = some c) : Writes p c

/-- The node is written, with nothing around it but wrappers of the given kinds. -/
inductive Written (wrapper : Kind → Bool) : Node → Prop
  | here {p n : Node} (h : p.Writes n) : Written wrapper n
  | wrapped {p n : Node} (hp : wrapper p.kind = true) (hn : n ∈ p.children)
      (h : Written wrapper p) : Written wrapper n

/-- `r` is the index of the element access `access`, whose object is written with the words of
`array`. -/
def IndexesInto (r access array : Node) : Prop :=
  access.kind = .subscript ∧ access.child? .index = some r ∧
    ∃ object, access.child? .object = some object ∧ object.unwrap.tokens = array.unwrap.tokens

/-! ### The checker's test for writes -/

/-- What a node writes to is a child of it. -/
lemma Writes.mem_children (h : p.Writes n) : n ∈ p.children := by
  cases h with
  | update _ hc => exact hc
  | delete _ _ _ hc => exact hc
  | element _ hc => exact hc
  | assignment _ hc => exact mem_children_of_child? hc
  | entry _ hc => exact mem_children_of_child? hc
  | default _ hc => exact mem_children_of_child? hc
  | iteration _ hc => exact mem_children_of_child? hc

/-- A node is written by its parent, or its parent is a wrapper that is written. -/
lemma written_iff {wrapper : Kind → Bool} (hn : n ∈ p.children) :
    n.Written wrapper ↔ p.Writes n ∨ wrapper p.kind = true ∧ p.Written wrapper := by
  constructor
  · intro h
    cases h with
    | here h =>
      rw [eq_of_mem_children_of_mem_children hn h.mem_children]
      exact Or.inl h
    | wrapped hq hnq h =>
      rw [eq_of_mem_children_of_mem_children hn hnq]
      exact Or.inr ⟨hq, h⟩
  · rintro (h | ⟨hp, h⟩)
    · exact .here h
    · exact .wrapped hp hn h

/-- A node has a child of some kind if one of its children is of that kind. -/
lemma hasChild_eq_true_iff {k : Kind} : n.hasChild k = true ↔ ∃ c ∈ n.children, c.kind = k := by
  simp [hasChild]

/-- The places of a node that it writes, by its kind. -/
lemma writes_iff (hn : n ∈ p.children) :
    p.Writes n ↔
      match p.kind with
      | .assignment | .augmentedAssignment | .assignmentPattern | .objectAssignmentPattern
      | .forInStatement => p.child? .left = some n
      | .pairPattern => p.child? .value = some n
      | .update | .arrayPattern | .restPattern => True
      | .unary => p.hasChild .deleteWord = true
      | _ => False := by
  constructor
  · intro h
    cases h with
    | assignment hp hc => rcases hp with hp | hp <;> simpa [hp] using hc
    | update hp _ => simp [hp]
    | delete hp hd hk _ => simpa [hp] using hasChild_eq_true_iff.mpr ⟨_, hd, hk⟩
    | element hp _ => rcases hp with hp | hp <;> simp [hp]
    | entry hp hc => simpa [hp] using hc
    | default hp hc => rcases hp with hp | hp <;> simpa [hp] using hc
    | iteration hp hc => simpa [hp] using hc
  · intro h
    split at h
    · rename_i hp
      exact .assignment (Or.inl hp) h
    · rename_i hp
      exact .assignment (Or.inr hp) h
    · rename_i hp
      exact .default (Or.inl hp) h
    · rename_i hp
      exact .default (Or.inr hp) h
    · rename_i hp
      exact .iteration hp h
    · rename_i hp
      exact .entry hp h
    · rename_i hp
      exact .update hp hn
    · rename_i hp
      exact .element (Or.inl hp) hn
    · rename_i hp
      exact .element (Or.inr hp) hn
    · rename_i hp
      obtain ⟨d, hd, hk⟩ := hasChild_eq_true_iff.mp h
      exact .delete hp hd hk hn
    · cases h

/-- The checker's test for writes finds those in grouping parentheses and no others. -/
theorem isWriteTarget_eq_true_iff : n.isWriteTarget = true ↔ n.Written Kind.isGrouping := by
  induction n using parentInduction with
  | step n ih =>
    unfold isWriteTarget
    split
    · rename_i hnone
      simp only [Bool.false_eq_true, false_iff]
      intro h
      have hparent : ∃ p : Node, n ∈ p.children := by
        cases h with
        | here h => exact ⟨_, h.mem_children⟩
        | wrapped _ hn _ => exact ⟨_, hn⟩
      obtain ⟨p, hp⟩ := hparent
      rw [parent?_of_mem_children hp] at hnone
      cases hnone
    · rename_i p hp
      have hn := mem_children_of_parent? hp
      rw [written_iff hn, writes_iff hn, ← ih p hn]
      cases hk : p.kind <;> simp [Kind.isGrouping, isPartOf_eq_true_iff hn]

/-- A read of an element of the array: an access to it that is not written. -/
theorem isPureRead_eq_true_iff {array : Node} :
    r.isPureRead array = true ↔
      ∃ access, r.IndexesInto access array ∧ ¬ access.Written Kind.isGrouping := by
  unfold isPureRead
  split
  · rename_i hnone
    simp only [Bool.false_eq_true, false_iff]
    rintro ⟨access, ⟨-, hindex, -⟩, -⟩
    rw [parent?_of_mem_children (mem_children_of_child? hindex)] at hnone
    cases hnone
  · rename_i access haccess
    have hr := mem_children_of_parent? haccess
    rw [Bool.and_eq_true, Bool.and_eq_true, Bool.and_eq_true, beq_iff_eq, isPartOf_eq_true_iff hr,
      childIs_eq_true_iff, Bool.not_eq_true', ← Bool.not_eq_true, isWriteTarget_eq_true_iff]
    simp only [beq_iff_eq]
    constructor
    · rintro ⟨⟨⟨hk, hindex⟩, hobject⟩, hwritten⟩
      exact ⟨access, ⟨hk, hindex, hobject⟩, hwritten⟩
    · rintro ⟨other, ⟨hk, hindex, hobject⟩, hwritten⟩
      obtain rfl := eq_of_mem_children_of_mem_children hr (mem_children_of_child? hindex)
      exact ⟨⟨⟨hk, hindex⟩, hobject⟩, hwritten⟩

/-- A use is the index of one access only. -/
lemma IndexesInto.eq {access other array array' : Node} (h : r.IndexesInto access array)
    (h' : r.IndexesInto other array') : access = other :=
  eq_of_mem_children_of_mem_children (mem_children_of_child? h.2.1) (mem_children_of_child? h'.2.1)

/-- A node that is written in wrappers of any kind wears a type assertion, or else nothing but
parentheses. -/
lemma Written.grouped_or_asserted (h : n.Written Kind.isTransparent) :
    n.Written Kind.isGrouping ∨
      ∃ p : Node, p.kind.isAssertion = true ∧ Via (·.kind.isTransparent = true) p n ∧
        p.Written Kind.isTransparent := by
  induction h with
  | here h => exact Or.inl (.here h)
  | @wrapped p n hp hn h ih =>
    rcases ih with hgroup | ⟨q, hq, hway, hwritten⟩
    · rcases Bool.or_eq_true _ _ |>.mp hp with hgrouping | hassertion
      · exact Or.inl (.wrapped hgrouping hn hgroup)
      · exact Or.inr ⟨p, hassertion, (Via.refl _ n).child hp hn, h⟩
    · exact Or.inr ⟨q, hq, hway.down hp hn, hwritten⟩

end Node

/-- A loop that writes an element of its array is not reported if the element wears nothing but
parentheses; if it is reported, the element wears a type assertion.  Exactly, the reported loops are
the visited ones, not silenced, in which every use of the index stands in an access to the array
that is not written in that way. -/
theorem reported_iff_elements_not_written (source : String) (root : Node) (l : CountedLoop) :
    (∀ r access, l.Binds r → r.IndexesInto access l.array → access.Written Kind.isGrouping →
      ¬ l.Reported source root) ∧
      (∀ r access, l.Binds r → r.IndexesInto access l.array → access.Written Kind.isTransparent →
        l.Reported source root →
          ∃ p : Node, p.kind.isAssertion = true ∧
            Node.Via (·.kind.isTransparent = true) p access ∧ p.Written Kind.isTransparent) ∧
      (l.Reported source root ↔
        (Suppression.ofTree source root.focus).wholeFile = false ∧ root.Complete ∧
          CountedLoop.ofNode? l.node = some l ∧ root.Visited l.node ∧
          (Suppression.ofTree source root.focus).covers l.node.label.start.row = false ∧
          ∀ r, l.Binds r →
            ∃ access, r.IndexesInto access l.array ∧ ¬ access.Written Kind.isGrouping) := by
  have hnot : ∀ r access, l.Binds r → r.IndexesInto access l.array →
      access.Written Kind.isGrouping → ¬ l.Reported source root := by
    intro r access hr haccess hwritten hrep
    have hread := ((CountedLoop.reported_iff source root).mp hrep).2.2.2.2.2 r hr
    obtain ⟨other, hother, hunwritten⟩ := Node.isPureRead_eq_true_iff.mp hread
    rw [haccess.eq hother] at hwritten
    exact hunwritten hwritten
  refine ⟨hnot, fun r access hr haccess hwritten hrep => ?_, ?_⟩
  · rcases hwritten.grouped_or_asserted with hgroup | hassert
    · exact absurd hrep (hnot r access hr haccess hgroup)
    · exact hassert
  · rw [CountedLoop.reported_iff]
    simp only [CountedLoop.OnlyReads, Node.isPureRead_eq_true_iff]

/-! ### A write that is missed -/

/-- A counted loop that sets every element of an array, which it asserts not to be null. -/
def assertedSource : String :=
  "for (let i = 0; i < a.length; i++) a[i]! = 1;"

/-- The nodes of `assertedSource`. -/
def assertedEntries : List PreorderEntry :=
  [ ⟨0, "program", "", true, ⟨0, 45⟩⟩,
    ⟨1, "for_statement", "", true, ⟨0, 45⟩⟩,
    ⟨2, "for", "", false, ⟨0, 3⟩⟩,
    ⟨2, "(", "", false, ⟨4, 5⟩⟩,
    ⟨2, "lexical_declaration", "initializer", true, ⟨5, 15⟩⟩,
    ⟨3, "let", "kind", false, ⟨5, 8⟩⟩,
    ⟨3, "variable_declarator", "", true, ⟨9, 14⟩⟩,
    ⟨4, "identifier", "name", true, ⟨9, 10⟩⟩,
    ⟨4, "=", "", false, ⟨11, 12⟩⟩,
    ⟨4, "number", "value", true, ⟨13, 14⟩⟩,
    ⟨3, ";", "", false, ⟨14, 15⟩⟩,
    ⟨2, "binary_expression", "condition", true, ⟨16, 28⟩⟩,
    ⟨3, "identifier", "left", true, ⟨16, 17⟩⟩,
    ⟨3, "<", "operator", false, ⟨18, 19⟩⟩,
    ⟨3, "member_expression", "right", true, ⟨20, 28⟩⟩,
    ⟨4, "identifier", "object", true, ⟨20, 21⟩⟩,
    ⟨4, ".", "", false, ⟨21, 22⟩⟩,
    ⟨4, "property_identifier", "property", true, ⟨22, 28⟩⟩,
    ⟨2, ";", "condition", false, ⟨28, 29⟩⟩,
    ⟨2, "update_expression", "increment", true, ⟨30, 33⟩⟩,
    ⟨3, "identifier", "argument", true, ⟨30, 31⟩⟩,
    ⟨3, "++", "operator", false, ⟨31, 33⟩⟩,
    ⟨2, ")", "", false, ⟨33, 34⟩⟩,
    ⟨2, "expression_statement", "body", true, ⟨35, 45⟩⟩,
    ⟨3, "assignment_expression", "", true, ⟨35, 44⟩⟩,
    ⟨4, "non_null_expression", "left", true, ⟨35, 40⟩⟩,
    ⟨5, "subscript_expression", "", true, ⟨35, 39⟩⟩,
    ⟨6, "identifier", "object", true, ⟨35, 36⟩⟩,
    ⟨6, "[", "", false, ⟨36, 37⟩⟩,
    ⟨6, "identifier", "index", true, ⟨37, 38⟩⟩,
    ⟨6, "]", "", false, ⟨38, 39⟩⟩,
    ⟨5, "!", "", false, ⟨39, 40⟩⟩,
    ⟨4, "=", "", false, ⟨41, 42⟩⟩,
    ⟨4, "number", "right", true, ⟨43, 44⟩⟩,
    ⟨3, ";", "", false, ⟨44, 45⟩⟩ ]

/-- A loop of `assertedEntries` is found although the access with its index is the left side of an
assignment, in an assertion that it is not null. -/
lemma exists_finding_asserted :
    ∃ t ∈ (Tree.read? assertedSource assertedEntries).toList,
      ∃ l ∈ (Node.ofTree t).findings (Suppression.ofTree assertedSource t), ∃ r ∈ l.boundUses,
        ∃ p ∈ (r.parent?.bind Node.parent?).toList, ∃ q ∈ p.parent?.toList,
          p.kind.isTransparent = true ∧ q.kind = .assignment ∧ p.isPartOf q .left = true := by
  decide +kernel

/-- The sample has a tree, which is not skipped and lacks no body. -/
lemma complete_asserted :
    ∀ t ∈ (Tree.read? assertedSource assertedEntries).toList,
      (Suppression.ofTree assertedSource t).wholeFile = false ∧ (Node.ofTree t).Complete := by
  decide +kernel

/-- A loop is reported that writes an element of its array. -/
theorem reported_with_asserted_write :
    ∃ t, Tree.read? assertedSource assertedEntries = some t ∧
      ∃ l r access, CountedLoop.Reported assertedSource (Node.ofTree t) l ∧ l.Binds r ∧
        r.IndexesInto access l.array ∧ access.Written Kind.isTransparent := by
  obtain ⟨t, ht, l, hl, r, hr, p, hp, q, hq, hwrap, hk, hleft⟩ := exists_finding_asserted
  obtain ⟨hfile, hcomplete⟩ := complete_asserted t ht
  rw [Option.mem_toList] at ht hp hq
  obtain ⟨access, haccess, hp⟩ := Option.bind_eq_some_iff.mp hp
  have hrep : CountedLoop.Reported assertedSource (Node.ofTree t) l :=
    (CountedLoop.reported_iff_mem_findings _ _).mpr ⟨hfile, hcomplete, hl⟩
  obtain ⟨-, -, hloop, -, -, hreads⟩ := (CountedLoop.reported_iff _ _).mp hrep
  have hbinds := (CountedLoop.mem_boundUses_iff hloop).mp hr
  obtain ⟨other, hother, -⟩ := Node.isPureRead_eq_true_iff.mp (hreads r hbinds)
  -- The access that makes the use a read is its parent.
  obtain rfl := Node.eq_of_mem_children_of_mem_children (Node.mem_children_of_parent? haccess)
    (Node.mem_children_of_child? hother.2.1)
  have hpq := Node.mem_children_of_parent? hq
  refine ⟨t, ht, l, r, access, hrep, hbinds, hother, ?_⟩
  exact .wrapped hwrap (Node.mem_children_of_parent? hp)
    (.here (.assignment (Or.inl hk) ((Node.isPartOf_eq_true_iff hpq).mp hleft)))

end LoopLint
