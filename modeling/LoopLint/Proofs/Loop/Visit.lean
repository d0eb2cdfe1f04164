import LoopLint.Loop.Event
import LoopLint.Proofs.Syntax.Descent
import Mathlib.Data.List.Nodup

/-!
# The nodes that are visited

Which nodes a walk visits can be said without the walk.  From a counted loop it goes to the array
and then to the body, from an identifier, a property name or a comment nowhere, and from any other
node to all its children.  `Node.parts` lists the next nodes in this order, `Node.Visited` is what
can be reached in this way, and `Node.visitOrder` lists it in post-order: every node after all that
is visited below it.

Different parts of a node share nothing (`eq_of_mem_preorder_parts`), so there is one way to every
visited node.
-/

namespace LoopLint

variable {n m r c : Node} {l k : CountedLoop}

/-! ### The way to the array of a header -/

/-- The kinds of nodes that recognising a header takes off the array: the condition, the access to
the length, and grouping parentheses. -/
def Kind.isWrapping : Kind → Bool
  | .expressionStatement | .binary | .member | .parenthesized => true
  | _ => false

/-- Taking parentheses away leads down through parentheses. -/
lemma Node.via_unwrap (n : Node) : Node.Via (·.kind.isWrapping = true) n n.unwrap := by
  fun_induction Node.unwrap n with
  | case1 n hn inner h ih =>
    have hinner := (List.mem_filter.mp (List.mem_of_mem_head? h)).1
    exact ih.child (by simp [hn, Kind.isWrapping]) hinner
  | case2 n _ _ => exact Node.Via.refl _ n
  | case3 n _ => exact Node.Via.refl _ n

namespace CountedLoop

/-- From the field of a clause the way leads through the expression of the clause. -/
lemma via_of_clause? {f : Field} {a : Node} (h : clause? n f = some c)
    (ha : Node.Via (·.kind.isWrapping = true) c a) :
    ∃ d, n.child? f = some d ∧ Node.Via (·.kind.isWrapping = true) d a := by
  obtain ⟨d, hd, hc⟩ := Option.bind_eq_some_iff.mp h
  refine ⟨d, hd, ?_⟩
  split at hc
  · cases hc
  · cases hc
  · rename_i hkind
    have hmem := (List.mem_filter.mp (List.mem_of_mem_head? hc)).1
    exact ha.child (by simp [hkind, Kind.isWrapping]) hmem
  · cases hc
    exact ha

/-- From a condition the way leads through the access to the length. -/
lemma via_of_bound? {index : String} (h : bound? n index = some c) :
    Node.Via (·.kind.isWrapping = true) n c := by
  unfold bound? at h
  split at h
  · rename_i hn
    obtain ⟨limit, hlimit, h⟩ := Option.bind_eq_some_iff.mp h
    split at h
    · rename_i hlim
      obtain ⟨object, hobject, rfl⟩ := Option.map_eq_some_iff.mp h
      have hobj : Node.Via (·.kind.isWrapping = true) limit object.unwrap :=
        object.via_unwrap.child (by simp [hlim.1, Kind.isWrapping])
          (Node.mem_children_of_child? hobject)
      exact hobj.child (by simp [hn.1, Kind.isWrapping]) (Node.mem_children_of_child? hlimit)
    · cases h
  · cases h

/-- A counted loop is a `for` statement. -/
lemma kind_of_ofNode? (h : ofNode? n = some l) : n.kind = .forStatement :=
  (ofNode?_eq_some_iff.mp h).1

/-- A counted loop knows its node. -/
lemma node_of_ofNode? (h : ofNode? n = some l) : l.node = n :=
  (ofNode?_eq_some_iff.mp h).2.1

/-- A counted loop has a body. -/
lemma body_of_ofNode? (h : ofNode? n = some l) : n.child? .body = some l.body :=
  (ofNode?_eq_some_iff.mp h).2.2.1

/-- The array of a counted loop stands in its condition. -/
lemma array_of_ofNode? (h : ofNode? n = some l) :
    ∃ d, n.child? .condition = some d ∧ Node.Via (·.kind.isWrapping = true) d l.array := by
  obtain ⟨_, _, _, _, condition, _, _, hc, _, _, _, ha⟩ := ofNode?_eq_some_iff.mp h
  exact via_of_clause? hc (via_of_bound? ha)

/-- The array and the body of a counted loop share nothing: they stand in different fields. -/
lemma not_mem_preorder_body_of_array (h : ofNode? n = some l) (ha : r ∈ l.array.preorder) :
    r ∉ l.body.preorder := by
  intro hb
  obtain ⟨d, hd, had⟩ := array_of_ofNode? h
  cases Node.field_eq_of_mem_preorder hd (body_of_ofNode? h) (Node.mem_preorder_trans had.1 ha) hb

end CountedLoop

namespace Node

/-! ### The next nodes -/

/-- Where the walk goes from a node, in this order. -/
def parts (n : Node) : List Node :=
  match CountedLoop.ofNode? n with
  | some l => [l.array, l.body]
  | none => if n.isAtom then [] else n.children

/-- From a counted loop the walk goes to the array and to the body. -/
lemma parts_of_loop (h : CountedLoop.ofNode? n = some l) : n.parts = [l.array, l.body] := by
  simp [parts, h]

/-- From an atom the walk goes nowhere. -/
lemma parts_of_atom (h : CountedLoop.ofNode? n = none) (ha : n.isAtom = true) : n.parts = [] := by
  simp [parts, h, ha]

/-- From any other node the walk goes to all children. -/
lemma parts_of_inner (h : CountedLoop.ofNode? n = none) (ha : n.isAtom = false) :
    n.parts = n.children := by
  simp [parts, h, ha]

/-- The three kinds of nodes: counted loops, nodes with nothing to visit below them, and all others.
-/
lemma parts_cases (n : Node) :
    (∃ l, CountedLoop.ofNode? n = some l ∧ n.parts = [l.array, l.body]) ∨
      (CountedLoop.ofNode? n = none ∧ n.isAtom = true ∧ n.parts = []) ∨
      (CountedLoop.ofNode? n = none ∧ n.isAtom = false ∧ n.parts = n.children) := by
  cases h : CountedLoop.ofNode? n with
  | some l => exact Or.inl ⟨l, rfl, parts_of_loop h⟩
  | none =>
    cases ha : n.isAtom with
    | true => exact Or.inr (Or.inl ⟨rfl, rfl, parts_of_atom h ha⟩)
    | false => exact Or.inr (Or.inr ⟨rfl, rfl, parts_of_inner h ha⟩)

/-- The way to a part leads through nothing but the node and what is taken off an array. -/
lemma via_of_mem_parts (h : c ∈ n.parts) :
    Via (fun t => t = n ∨ t.kind.isWrapping = true) n c := by
  rcases parts_cases n with ⟨l, hl, hp⟩ | ⟨_, _, hp⟩ | ⟨_, _, hp⟩
  · rw [hp, List.mem_pair] at h
    rcases h with rfl | rfl
    · obtain ⟨d, hd, had⟩ := CountedLoop.array_of_ofNode? hl
      exact (had.mono fun _ => Or.inr).child (Or.inl rfl) (mem_children_of_child? hd)
    · exact (Via.refl _ _).child (Or.inl rfl)
        (mem_children_of_child? (CountedLoop.body_of_ofNode? hl))
  · rw [hp] at h
    cases h
  · rw [hp] at h
    exact (Via.refl _ c).child (Or.inl rfl) h

/-- The walk goes down. -/
lemma mem_preorder_of_mem_parts (h : c ∈ n.parts) : c ∈ n.preorder :=
  (via_of_mem_parts h).1

/-- The parts lie deeper than the node. -/
lemma above_length_lt_of_mem_parts (h : c ∈ n.parts) : n.above.length < c.above.length := by
  rcases parts_cases n with ⟨l, hl, hp⟩ | ⟨_, _, hp⟩ | ⟨_, _, hp⟩
  · rw [hp, List.mem_pair] at h
    rcases h with rfl | rfl
    · obtain ⟨d, hd, had⟩ := CountedLoop.array_of_ofNode? hl
      have h₁ := above_length_of_mem_children (mem_children_of_child? hd)
      have h₂ := above_length_le_of_mem_preorder had.1
      omega
    · have h₁ := above_length_of_mem_children
        (mem_children_of_child? (CountedLoop.body_of_ofNode? hl))
      omega
  · rw [hp] at h
    cases h
  · rw [hp] at h
    have h₁ := above_length_of_mem_children h
    omega

/-- The walk comes to smaller and smaller trees. -/
lemma sizeOf_focus_lt_of_mem_parts (h : c ∈ n.parts) : sizeOf c.focus < sizeOf n.focus := by
  rcases parts_cases n with ⟨l, hl, hp⟩ | ⟨_, _, hp⟩ | ⟨_, _, hp⟩
  · rw [hp, List.mem_pair] at h
    rcases h with rfl | rfl
    · exact CountedLoop.sizeOf_focus_array_lt hl
    · exact CountedLoop.sizeOf_focus_body_lt hl
  · rw [hp] at h
    cases h
  · rw [hp] at h
    exact sizeOf_focus_lt_of_mem_children h

/-- What holds of a node as soon as it holds of the nodes visited next holds of every node. -/
theorem visitInduction {motive : Node → Prop}
    (step : ∀ n, (∀ c ∈ n.parts, motive c) → motive n) (n : Node) : motive n :=
  step n fun c _ => visitInduction step c
termination_by sizeOf n.focus
decreasing_by exact sizeOf_focus_lt_of_mem_parts ‹_›

/-- Different parts of a node share nothing. -/
lemma eq_of_mem_preorder_parts {d : Node} (hc : c ∈ n.parts) (hd : d ∈ n.parts)
    (hrc : r ∈ c.preorder) (hrd : r ∈ d.preorder) : c = d := by
  rcases parts_cases n with ⟨l, hl, hp⟩ | ⟨_, _, hp⟩ | ⟨_, _, hp⟩
  · rw [hp, List.mem_pair] at hc hd
    rcases hc with rfl | rfl <;> rcases hd with rfl | rfl
    · rfl
    · exact absurd hrd (CountedLoop.not_mem_preorder_body_of_array hl hrc)
    · exact absurd hrc (CountedLoop.not_mem_preorder_body_of_array hl hrd)
    · rfl
  · rw [hp] at hc
    cases hc
  · rw [hp] at hc hd
    exact eq_of_mem_preorder_children hc hd hrc hrd

/-- The walk comes to each part once. -/
lemma nodup_parts (n : Node) : n.parts.Nodup := by
  rcases parts_cases n with ⟨l, hl, hp⟩ | ⟨_, _, hp⟩ | ⟨_, _, hp⟩
  · rw [hp]
    refine List.nodup_cons.mpr ⟨fun h => ?_, List.nodup_singleton _⟩
    have hbody := CountedLoop.not_mem_preorder_body_of_array hl (self_mem_preorder l.array)
    rw [List.mem_singleton.mp h] at hbody
    exact hbody (self_mem_preorder l.body)
  · rw [hp]
    exact List.nodup_nil
  · rw [hp]
    exact nodup_children n

/-- No node is a part of something below it. -/
lemma not_mem_preorder_of_mem_parts (h : c ∈ n.parts) : n ∉ c.preorder := by
  intro hn
  have hlt := above_length_lt_of_mem_parts h
  have hle := above_length_le_of_mem_preorder hn
  omega

/-! ### Visited nodes -/

/-- The nodes that are visited when the walk starts at `root`: the root, the array and the body of a
visited counted loop, and the children of any other visited node below which there is something to
visit. -/
inductive Visited (root : Node) : Node → Prop
  | root : Visited root root
  | array {n : Node} {l : CountedLoop} (hn : Visited root n) (hl : CountedLoop.ofNode? n = some l) :
      Visited root l.array
  | body {n : Node} {l : CountedLoop} (hn : Visited root n) (hl : CountedLoop.ofNode? n = some l) :
      Visited root l.body
  | child {n c : Node} (hn : Visited root n) (hl : CountedLoop.ofNode? n = none)
      (ha : n.isAtom = false) (hc : c ∈ n.children) : Visited root c

/-- A step of the walk leads from visited nodes to visited nodes. -/
lemma Visited.part (h : Visited n m) (hc : c ∈ m.parts) : Visited n c := by
  rcases parts_cases m with ⟨l, hl, hp⟩ | ⟨_, _, hp⟩ | ⟨hl, ha, hp⟩
  · rw [hp, List.mem_pair] at hc
    rcases hc with rfl | rfl
    · exact h.array hl
    · exact h.body hl
  · rw [hp] at hc
    cases hc
  · rw [hp] at hc
    exact h.child hl ha hc

/-- Visits can be put one behind the other. -/
lemma Visited.trans (hm : Visited n m) (hr : Visited m r) : Visited n r := by
  induction hr with
  | root => exact hm
  | array _ hl ih => exact ih.array hl
  | body _ hl ih => exact ih.body hl
  | child _ hl ha hc ih => exact ih.child hl ha hc

/-- What is visited below a part is visited. -/
lemma Visited.of_part (hc : c ∈ n.parts) (hm : Visited c m) : Visited n m :=
  (Visited.root.part hc).trans hm

/-- What is visited is the node itself and what is visited from its parts. -/
lemma visited_iff : Visited n m ↔ m = n ∨ ∃ c ∈ n.parts, Visited c m := by
  constructor
  · intro h
    induction h with
    | root => exact Or.inl rfl
    | array _ hl ih =>
      rcases ih with rfl | ⟨c, hc, h⟩
      · exact Or.inr ⟨_, by simp [parts_of_loop hl], .root⟩
      · exact Or.inr ⟨c, hc, h.array hl⟩
    | body _ hl ih =>
      rcases ih with rfl | ⟨c, hc, h⟩
      · exact Or.inr ⟨_, by simp [parts_of_loop hl], .root⟩
      · exact Or.inr ⟨c, hc, h.body hl⟩
    | child _ hl ha hd ih =>
      rcases ih with rfl | ⟨c, hc, h⟩
      · exact Or.inr ⟨_, by rwa [parts_of_inner hl ha], .root⟩
      · exact Or.inr ⟨c, hc, h.child hl ha hd⟩
  · rintro (rfl | ⟨c, hc, h⟩)
    · exact .root
    · exact h.of_part hc

/-- Visited nodes stand below the root. -/
lemma Visited.mem_preorder (h : Visited n m) : m ∈ n.preorder := by
  induction n using visitInduction with
  | step n ih =>
    rcases visited_iff.mp h with rfl | ⟨c, hc, hm⟩
    · exact self_mem_preorder m
    · exact mem_preorder_trans (mem_preorder_of_mem_parts hc) (ih c hc hm)

/-- From different parts different nodes are visited. -/
lemma Visited.eq_of_mem_parts {d : Node} (hc : c ∈ n.parts) (hd : d ∈ n.parts)
    (hrc : Visited c r) (hrd : Visited d r) : c = d :=
  eq_of_mem_preorder_parts hc hd hrc.mem_preorder hrd.mem_preorder

/-! ### The order of the visit -/

/-- The visited nodes in post-order: the parts in their order, each with what is visited below it,
and then the node. -/
def visitOrder (n : Node) : List Node :=
  n.parts.attach.flatMap (fun c => visitOrder c.1) ++ [n]
termination_by sizeOf n.focus
decreasing_by exact sizeOf_focus_lt_of_mem_parts c.2

/-- A node comes behind all that is visited below it. -/
lemma visitOrder_eq (n : Node) : n.visitOrder = n.parts.flatMap visitOrder ++ [n] := by
  rw [visitOrder, List.flatMap_subtype (g := visitOrder) (fun _ _ => rfl), List.unattach_attach]

/-- The order lists the visited nodes and no others. -/
lemma mem_visitOrder_iff : m ∈ n.visitOrder ↔ Visited n m := by
  induction n using visitInduction with
  | step n ih =>
    rw [visitOrder_eq, visited_iff, List.mem_append, List.mem_flatMap, List.mem_singleton, or_comm]
    exact or_congr_right (exists_congr fun c => and_congr_right (ih c))

/-- No node is visited twice. -/
lemma nodup_visitOrder (n : Node) : n.visitOrder.Nodup := by
  induction n using visitInduction with
  | step n ih =>
    rw [visitOrder_eq, List.nodup_append]
    refine ⟨List.nodup_flatMap.mpr ⟨ih, ?_⟩, List.nodup_singleton n, ?_⟩
    · refine (nodup_parts n).imp_of_mem fun {c d} hc hd hne m hmc hmd => hne ?_
      exact Visited.eq_of_mem_parts hc hd (mem_visitOrder_iff.mp hmc) (mem_visitOrder_iff.mp hmd)
    · intro m hm d hd heq
      obtain ⟨c, hc, hmc⟩ := List.mem_flatMap.mp hm
      rw [heq, List.mem_singleton.mp hd] at hmc
      exact not_mem_preorder_of_mem_parts hc (mem_visitOrder_iff.mp hmc).mem_preorder

/-- What is visited from a visited node stands together in the order. -/
lemma Visited.visitOrder_isInfix (h : Visited n m) : m.visitOrder <:+: n.visitOrder := by
  induction n using visitInduction with
  | step n ih =>
    rcases visited_iff.mp h with rfl | ⟨c, hc, hm⟩
    · exact List.infix_refl _
    · have hflat : c.visitOrder <:+: n.parts.flatMap visitOrder := by
        obtain ⟨before, after, hsplit⟩ := List.append_of_mem hc
        rw [hsplit, List.flatMap_append, List.flatMap_cons, ← List.append_assoc]
        exact List.infix_append _ _ _
      rw [visitOrder_eq n]
      exact (ih c hc hm).trans (hflat.trans (List.prefix_append _ [n]).isInfix)

/-- The counted loops that are visited, in post-order. -/
def visitedLoops (n : Node) : List CountedLoop :=
  n.visitOrder.filterMap CountedLoop.ofNode?

/-- A loop comes behind the loops that are visited inside it. -/
lemma visitedLoops_eq (n : Node) :
    n.visitedLoops = n.parts.flatMap visitedLoops ++ (CountedLoop.ofNode? n).toList := by
  have hlast : [n].filterMap CountedLoop.ofNode? = (CountedLoop.ofNode? n).toList := by
    cases h : CountedLoop.ofNode? n <;> simp [h]
  rw [visitedLoops, visitOrder_eq, List.filterMap_append, List.filterMap_flatMap, hlast]
  rfl

/-- The visited loops are the counted loops at visited nodes. -/
lemma mem_visitedLoops_iff :
    l ∈ n.visitedLoops ↔ CountedLoop.ofNode? l.node = some l ∧ Visited n l.node := by
  rw [visitedLoops, List.mem_filterMap]
  constructor
  · rintro ⟨m, hm, hl⟩
    obtain rfl := CountedLoop.node_of_ofNode? hl
    exact ⟨hl, mem_visitOrder_iff.mp hm⟩
  · rintro ⟨hl, hv⟩
    exact ⟨l.node, mem_visitOrder_iff.mpr hv, hl⟩

end Node
end LoopLint
