import LoopLint.Loop.Walk
import LoopLint.Proofs.Loop.Binding

/-!
# What a walk over a node does

The walk keeps a stack of open loops, but what it does to the stack and what it finds can be said in
one equation, whatever loops are open when it starts (`Walk.run_events`): it tells the open loops
the uses that are free in the node, and it finds the loops of the node whose uses are all reads.  If
some visited `for` statement has no body, the walk fails.

The equation is proved by induction over the visit.  A loop is pushed before its parts and popped
after them; in between the stack is a candidate on top of the old stack, and the uses divide into
those that the candidate takes and those that go on to the old stack (`Candidate.resolveAll_cons`).
-/

namespace LoopLint

variable {n m c : Node} {l : CountedLoop}

/-! ### Many uses at once -/

namespace Candidate

/-- Several uses of the loop's index, one after the other. -/
def noteAll (c : Candidate) (uses : List Node) : Candidate :=
  uses.foldl note c

/-- Several uses of names, one after the other. -/
def resolveAll (uses : List Node) (cs : List Candidate) : List Candidate :=
  uses.foldl (fun cs r => resolve r cs) cs

/-- A use changes a candidate at most in whether it qualifies. -/
lemma note_eq (c : Candidate) (r : Node) :
    c.note r = ⟨c.loop, c.qualifies && r.isPureRead c.loop.array⟩ := by
  unfold note
  by_cases h : r.isPureRead c.loop.array = true <;> simp [h]

/-- Many uses leave a loop a candidate if all of them are reads of its array. -/
lemma noteAll_eq (c : Candidate) (uses : List Node) :
    c.noteAll uses = ⟨c.loop, c.qualifies && uses.all (·.isPureRead c.loop.array)⟩ := by
  unfold noteAll
  induction uses generalizing c with
  | nil => simp
  | cons r uses ih =>
    rw [List.foldl_cons, ih, note_eq, List.all_cons, Bool.and_assoc]

/-- Without uses the open loops stay as they are. -/
@[simp] lemma resolveAll_nil_left (cs : List Candidate) : resolveAll [] cs = cs := rfl

/-- Where no loop is open, uses change nothing. -/
lemma resolveAll_nil_right (uses : List Node) : resolveAll uses [] = [] := by
  unfold resolveAll
  induction uses with
  | nil => rfl
  | cons r uses ih => exact ih

/-- Uses are told to the open loops one row behind the other. -/
lemma resolveAll_append (us vs : List Node) (cs : List Candidate) :
    resolveAll (us ++ vs) cs = resolveAll vs (resolveAll us cs) :=
  List.foldl_append

/-- The innermost loop takes the uses of its index, and the loops further out get the others. -/
lemma resolveAll_cons (uses : List Node) (c : Candidate) (cs : List Candidate) :
    resolveAll uses (c :: cs) =
      c.noteAll (uses.filter (fun r => r.text = c.loop.index)) ::
        resolveAll (uses.filter (fun r => r.text ≠ c.loop.index)) cs := by
  induction uses generalizing c cs with
  | nil => rfl
  | cons r uses ih =>
    have hstep : resolveAll (r :: uses) (c :: cs) = resolveAll uses (resolve r (c :: cs)) := rfl
    have hloop : (c.note r).loop = c.loop := by rw [note_eq]
    by_cases h : r.text = c.loop.index
    · rw [hstep, resolve, if_pos h.symm, ih, hloop, List.filter_cons_of_pos (by simpa using h),
        List.filter_cons_of_neg (by simpa using h)]
      rfl
    · have hne : c.loop.index ≠ r.text := fun heq => h heq.symm
      rw [hstep, resolve, if_neg hne, ih, List.filter_cons_of_neg (by simpa using h),
        List.filter_cons_of_pos (by simpa using h)]
      rfl

end Candidate

/-! ### Complete trees -/

namespace Node

/-- Every visited `for` statement has a body. -/
def Complete (n : Node) : Prop :=
  ∀ m, Visited n m → m.lacksBody = false

instance (n : Node) : Decidable n.Complete :=
  decidable_of_iff (∀ m ∈ n.visitOrder, m.lacksBody = false)
    (forall_congr' fun _ => imp_congr_left mem_visitOrder_iff)

/-- A tree is complete if no body is missing at its root and in the parts that are visited. -/
lemma complete_iff : n.Complete ↔ n.lacksBody = false ∧ ∀ c ∈ n.parts, c.Complete := by
  constructor
  · intro h
    exact ⟨h n .root, fun c hc m hm => h m (hm.of_part hc)⟩
  · rintro ⟨hn, hparts⟩ m hm
    rcases visited_iff.mp hm with rfl | ⟨c, hc, hcm⟩
    · exact hn
    · exact hparts c hc m hcm

/-- A counted loop has a body. -/
lemma not_lacksBody_of_loop (hl : CountedLoop.ofNode? n = some l) : n.lacksBody = false := by
  simp [lacksBody, CountedLoop.body_of_ofNode? hl]

/-! ### Events by kind of node -/

/-- A counted loop is opened, its parts are visited, and it is closed. -/
lemma events_of_loop (hl : CountedLoop.ofNode? n = some l) :
    n.events = .enter l :: (n.parts.flatMap events ++ [.leave]) := by
  rw [events, parts_of_loop hl]
  split
  · rename_i k hk
    rw [hl] at hk
    cases hk
    simp
  · rename_i hk
    rw [hl] at hk
    cases hk

/-- A node that is no counted loop stands for a use, or for nothing but its parts, unless it lacks
its body. -/
lemma events_of_no_loop (hl : CountedLoop.ofNode? n = none) :
    n.events =
      if n.lacksBody then [.incomplete]
      else if n.isReference then [.use n] else n.parts.flatMap events := by
  rw [events]
  split
  · rename_i k hk
    rw [hl] at hk
    cases hk
  · rw [List.flatMap_subtype (g := events) (fun _ _ => rfl), List.unattach_attach]
    cases ha : n.isAtom with
    | true => simp [parts_of_atom hl ha]
    | false => simp [parts_of_inner hl ha, not_isReference_of_not_isAtom ha]

end Node

/-! ### The equation -/

namespace CountedLoop

/-- Whether the loop is reported: every use of its index is a read, and its row is not silenced. -/
def isReportable (s : Suppression) (l : CountedLoop) : Bool :=
  l.onlyReads && !s.covers l.node.label.start.row

end CountedLoop

/-- The loops that a walk over the node finds, in the order in which they close. -/
def Node.findings (s : Suppression) (n : Node) : List CountedLoop :=
  n.visitedLoops.filter (CountedLoop.isReportable s)

/-- The findings in a node are those in its parts, and the node itself if it is to be reported. -/
lemma Node.findings_eq (s : Suppression) (n : Node) :
    n.findings s = n.parts.flatMap (findings s) ++
      (CountedLoop.ofNode? n).toList.filter (CountedLoop.isReportable s) := by
  rw [findings, visitedLoops_eq, List.filter_append, List.filter_flatMap]
  rfl

/-- No loop is found twice. -/
lemma Node.nodup_findings (s : Suppression) (n : Node) : (n.findings s).Nodup := by
  refine List.Nodup.filter _ (List.Nodup.filterMap ?_ n.nodup_visitOrder)
  intro m m' l hm hm'
  rw [← CountedLoop.node_of_ofNode? hm, ← CountedLoop.node_of_ofNode? hm']

namespace Walk

/-- The walk after some uses that concern the open loops, and some loops that closed. -/
def extend (w : Walk) (uses : List Node) (loops : List CountedLoop) : Walk :=
  ⟨Candidate.resolveAll uses w.opened, w.found ++ loops⟩

/-- Without uses and without findings a walk stays where it is. -/
@[simp] lemma extend_nil (w : Walk) : w.extend [] [] = w := by
  simp [extend]

/-- What a walk learns in two steps it may learn in one. -/
lemma extend_extend (w : Walk) (us vs : List Node) (ls ks : List CountedLoop) :
    (w.extend us ls).extend vs ks = w.extend (us ++ vs) (ls ++ ks) := by
  simp [extend, Candidate.resolveAll_append]

/-- A walk takes its events one by one. -/
lemma run_cons (s : Suppression) (w : Walk) (e : Event) (es : List Event) :
    w.run s (e :: es) = (w.step s e).bind (fun w => w.run s es) := by
  rw [run, List.foldlM_cons]
  rfl

/-- What a walk over a node ends with. -/
def after (s : Suppression) (w : Walk) (n : Node) : Except WalkError Walk :=
  if n.Complete then .ok (w.extend n.freeUses (n.findings s)) else .error .missingBody

/-- What a walk is after a node, with completeness opened one level. -/
lemma after_eq (s : Suppression) (w : Walk) (n : Node) :
    w.after s n =
      if n.lacksBody = false ∧ ∀ c ∈ n.parts, c.Complete then
        .ok (w.extend n.freeUses (n.findings s))
      else .error .missingBody :=
  if_congr Node.complete_iff rfl rfl

/-- If the equation holds of each node of a list, it holds of the list. -/
lemma run_flatMap_events {s : Suppression} {cs : List Node}
    (h : ∀ c ∈ cs, ∀ w : Walk, w.run s c.events = w.after s c) (w : Walk) :
    w.run s (cs.flatMap Node.events) =
      if ∀ c ∈ cs, c.Complete then
        .ok (w.extend (cs.flatMap Node.freeUses) (cs.flatMap (Node.findings s)))
      else .error .missingBody := by
  induction cs generalizing w with
  | nil => simp
  | cons c cs ih =>
    have hcs := ih fun d hd => h d (List.mem_cons_of_mem c hd)
    rw [List.flatMap_cons, run_append, h c List.mem_cons_self, after]
    by_cases hc : c.Complete
    · rw [if_pos hc]
      simp only [Except.bind, hcs, List.forall_mem_cons, hc, true_and, List.flatMap_cons,
        extend_extend]
    · rw [if_neg hc, if_neg fun hall => hc (hall c List.mem_cons_self)]
      rfl

/-- Closing a loop whose uses are known. -/
lemma leave_extend (s : Suppression) (w : Walk) (l : CountedLoop) (uses : List Node)
    (loops : List CountedLoop)
    (hread : l.onlyReads = (uses.filter (fun r => r.text = l.index)).all (·.isPureRead l.array)) :
    (extend { w with opened := ⟨l, true⟩ :: w.opened } uses loops).step s .leave =
      .ok (w.extend (uses.filter (fun r => r.text ≠ l.index))
        (loops ++ [l].filter (CountedLoop.isReportable s))) := by
  have hfind : (Candidate.finding? s ⟨l, l.onlyReads⟩).toList =
      [l].filter (CountedLoop.isReportable s) := by
    by_cases h : CountedLoop.isReportable s l = true
    · rw [List.filter_singleton, h]
      simp only [CountedLoop.isReportable] at h
      simp [Candidate.finding?, h]
    · rw [List.filter_singleton]
      simp only [CountedLoop.isReportable] at h ⊢
      simp [Candidate.finding?, h]
  simp only [extend, step, Candidate.resolveAll_cons, Candidate.noteAll_eq, Bool.true_and]
  rw [← hread, hfind, List.append_assoc]

/-- The equation for a counted loop, from the equation for its array and its body. -/
lemma run_events_of_loop {s : Suppression} (hl : CountedLoop.ofNode? n = some l)
    (h : ∀ c ∈ n.parts, ∀ w : Walk, w.run s c.events = w.after s c) (w : Walk) :
    w.run s n.events = w.after s n := by
  have huses : l.onlyReads = ((n.parts.flatMap Node.freeUses).filter
      (fun r => r.text = l.index)).all (·.isPureRead l.array) := by
    simp [CountedLoop.onlyReads, CountedLoop.boundUses, Node.parts_of_loop hl]
  have henter : w.step s (.enter l) = .ok { w with opened := ⟨l, true⟩ :: w.opened } := rfl
  rw [Node.events_of_loop hl, run_cons, henter, after_eq, Node.not_lacksBody_of_loop hl]
  simp only [Except.bind, run_append, run_flatMap_events h, true_and]
  by_cases hc : ∀ c ∈ n.parts, c.Complete
  · rw [if_pos hc, if_pos hc, Node.freeUses_eq, hl, Node.findings_eq, hl]
    simp only [run_cons, leave_extend s w l _ _ huses, Except.bind, run_nil]
    rfl
  · rw [if_neg hc, if_neg hc]

/-- The equation for any other node, from the equation for its parts. -/
lemma run_events_of_no_loop {s : Suppression} (hl : CountedLoop.ofNode? n = none)
    (h : ∀ c ∈ n.parts, ∀ w : Walk, w.run s c.events = w.after s c) (w : Walk) :
    w.run s n.events = w.after s n := by
  have hfind : n.findings s = n.parts.flatMap (Node.findings s) := by
    rw [Node.findings_eq, hl]
    exact List.append_nil _
  rw [Node.events_of_no_loop hl, after_eq, Node.freeUses_eq, hl, hfind]
  cases hb : n.lacksBody with
  | true => simp [run_cons, step, Except.bind]
  | false =>
    cases href : n.isReference with
    | true =>
      have hp := Node.parts_of_atom hl (Node.isAtom_of_isReference href)
      simp [run_cons, step, Except.bind, hp, extend, Candidate.resolveAll]
    | false => simp [run_flatMap_events h]

/-- What a walk over a node does, from any state: it passes the free uses on to the open loops and
finds the loops of the node whose uses are reads, or fails if a visited `for` statement has no body.
-/
theorem run_events (s : Suppression) (w : Walk) (n : Node) : w.run s n.events = w.after s n := by
  induction n using Node.visitInduction generalizing w with
  | step n ih =>
    cases hl : CountedLoop.ofNode? n with
    | some l => exact run_events_of_loop hl ih w
    | none => exact run_events_of_no_loop hl ih w

/-- A loop is found from the start if no body is missing and it is among the findings of the node.
-/
lemma exists_run_start_iff {s : Suppression} :
    (∃ w, Walk.start.run s n.events = .ok w ∧ l ∈ w.found) ↔ n.Complete ∧ l ∈ n.findings s := by
  rw [run_events, after]
  by_cases hc : n.Complete
  · rw [if_pos hc]
    simp only [Except.ok.injEq, exists_eq_left', hc, true_and]
    rfl
  · simp [hc]

end Walk
end LoopLint
