import LoopLint.Proofs.Loop.Findings
import Mathlib.Data.List.Forall2

/-!
# The stack of open loops

A walk over a node gives the stack back as it was, but for candidates that no longer qualify
(`Walk.Keeps`).  So at every moment the stack is known: when the walk comes to a node, the loops on
the stack are those that it has entered on its way and not left (`Node.Reaches`), and these are the
loops that enclose the node.  In particular no loop is closed that was not opened, none is left open
at the end, and the depth that is logged for a loop is its depth in the visit.
-/

namespace LoopLint

variable {n m c : Node} {l k : CountedLoop} {s : Suppression} {w w' : Walk}

/-! ### What stays on the stack -/

/-- A candidate later on: the loop is the same, and if it qualifies it did so before. -/
def Candidate.Becomes (c d : Candidate) : Prop :=
  d.loop = c.loop ∧ (d.qualifies = true → c.qualifies = true)

/-- Uses leave a loop what it is, and may only stop it from qualifying. -/
lemma Candidate.becomes_noteAll (c : Candidate) (uses : List Node) :
    c.Becomes (c.noteAll uses) := by
  rw [noteAll_eq]
  refine ⟨rfl, fun h => ?_⟩
  rw [Bool.and_eq_true] at h
  exact h.1

/-- Uses change the open loops position by position. -/
lemma Candidate.forall₂_becomes_resolveAll (uses : List Node) (cs : List Candidate) :
    List.Forall₂ Becomes cs (resolveAll uses cs) := by
  induction cs generalizing uses with
  | nil =>
    rw [resolveAll_nil_right]
    exact .nil
  | cons c cs ih =>
    rw [resolveAll_cons]
    exact .cons (becomes_noteAll c _) (ih _)

/-- The open loops stay the same loops. -/
lemma Candidate.map_loop_of_forall₂_becomes {cs ds : List Candidate}
    (h : List.Forall₂ Becomes cs ds) : ds.map (·.loop) = cs.map (·.loop) := by
  induction h with
  | nil => rfl
  | cons hcd _ ih => rw [List.map_cons, List.map_cons, hcd.1, ih]

namespace Walk

/-- A walk later on, with the same loops open: none of them qualifies that did not before, and what
was found stays found. -/
structure Keeps (w w' : Walk) : Prop where
  opened : List.Forall₂ Candidate.Becomes w.opened w'.opened
  found : w.found <+: w'.found

/-- What a walk learns about its loops keeps them open. -/
lemma keeps_extend (w : Walk) (uses : List Node) (loops : List CountedLoop) :
    w.Keeps (w.extend uses loops) :=
  ⟨Candidate.forall₂_becomes_resolveAll uses w.opened, List.prefix_append _ _⟩

/-- The open loops are the same, in the same order. -/
lemma Keeps.map_loop_opened (h : w.Keeps w') : w'.opened.map (·.loop) = w.opened.map (·.loop) :=
  Candidate.map_loop_of_forall₂_becomes h.opened

/-- A walk over a node that comes to its end keeps the open loops. -/
lemma keeps_of_run_events (h : w.run s n.events = .ok w') : w.Keeps w' := by
  rw [run_events, after] at h
  split at h
  · cases h
    exact w.keeps_extend _ _
  · cases h

/-- So does a walk over several nodes. -/
lemma keeps_of_run_flatMap_events {cs : List Node}
    (h : w.run s (cs.flatMap Node.events) = .ok w') : w.Keeps w' := by
  rw [run_flatMap_events fun c _ w => run_events s w c] at h
  split at h
  · cases h
    exact w.keeps_extend _ _
  · cases h

/-- A walk comes through two rows of events if it comes through one and then the other. -/
lemma run_append_eq_ok_iff {es fs : List Event} :
    w.run s (es ++ fs) = .ok w' ↔ ∃ v, w.run s es = .ok v ∧ v.run s fs = .ok w' := by
  rw [run_append]
  cases w.run s es <;> simp [Except.bind]

/-- A loop that is entered is put on the stack. -/
lemma run_enter_cons (l : CountedLoop) (es : List Event) :
    w.run s (.enter l :: es) = run s ⟨⟨l, true⟩ :: w.opened, w.found⟩ es :=
  run_cons s w (.enter l) es

end Walk

/-! ### On the way to a node -/

/-- From `n` the walk comes to `m` after the events `es`, through the counted loops `loops`, the
outermost first.  It is then inside these loops; what stands before the way in each row of parts is
done. -/
inductive Node.Reaches : Node → List CountedLoop → List Event → Node → Prop
  | here (n : Node) : Reaches n [] [] n
  | loop {n c m : Node} {l : CountedLoop} {before rest : List Node} {loops : List CountedLoop}
      {es : List Event} (hl : CountedLoop.ofNode? n = some l) (hp : n.parts = before ++ c :: rest)
      (h : Reaches c loops es m) :
      Reaches n (l :: loops) (.enter l :: (before.flatMap events ++ es)) m
  | inner {n c m : Node} {before rest : List Node} {loops : List CountedLoop} {es : List Event}
      (hl : CountedLoop.ofNode? n = none) (hb : n.lacksBody = false)
      (hp : n.parts = before ++ c :: rest) (h : Reaches c loops es m) :
      Reaches n loops (before.flatMap events ++ es) m

namespace Node

variable {loops : List CountedLoop} {es : List Event}

/-- What stands among the parts is a part. -/
lemma mem_parts_of_eq {before rest : List Node} (hp : n.parts = before ++ c :: rest) :
    c ∈ n.parts := by
  simp [hp]

/-- The walk comes to visited nodes only. -/
lemma Reaches.visited (h : Reaches n loops es m) : Visited n m := by
  induction h with
  | here n => exact .root
  | loop _ hp _ ih => exact ih.of_part (mem_parts_of_eq hp)
  | inner _ _ hp _ ih => exact ih.of_part (mem_parts_of_eq hp)

/-- The walk comes to every visited node that is not inside a `for` statement without a body. -/
lemma Visited.exists_reaches (h : Visited n m)
    (hb : ∀ t, Visited n t → Visited t m → t ≠ m → t.lacksBody = false) :
    ∃ loops es, Reaches n loops es m := by
  induction n using visitInduction with
  | step n ih =>
    rcases visited_iff.mp h with rfl | ⟨c, hc, hm⟩
    · exact ⟨[], [], .here m⟩
    · obtain ⟨loops, es, hr⟩ := ih c hc hm fun t ht => hb t (ht.of_part hc)
      obtain ⟨before, rest, hp⟩ := List.append_of_mem hc
      have hne : n ≠ m := by
        rintro rfl
        exact not_mem_preorder_of_mem_parts hc hm.mem_preorder
      cases hl : CountedLoop.ofNode? n with
      | some l => exact ⟨_, _, .loop hl hp hr⟩
      | none => exact ⟨_, _, .inner hl (hb n .root h hne) hp hr⟩

/-- The events of the node that the walk comes to follow those before it. -/
lemma Reaches.exists_events_eq (h : Reaches n loops es m) :
    ∃ fs, n.events = es ++ m.events ++ fs := by
  induction h with
  | here n => exact ⟨[], by simp⟩
  | @loop n c m l before rest loops es hl hp _ ih =>
    obtain ⟨fs, hfs⟩ := ih
    refine ⟨fs ++ rest.flatMap events ++ [.leave], ?_⟩
    rw [events_of_loop hl, hp]
    simp [hfs]
  | @inner n c m before rest loops es hl hb hp _ ih =>
    obtain ⟨fs, hfs⟩ := ih
    have href := not_isReference_of_mem_parts (mem_parts_of_eq hp)
    refine ⟨fs ++ rest.flatMap events, ?_⟩
    rw [events_of_no_loop hl, hb, href, hp]
    simp [hfs]

/-- The loops on the way to a node are the visited loops that enclose it. -/
lemma Reaches.mem_loops_iff (h : Reaches n loops es m) :
    k ∈ loops ↔ CountedLoop.ofNode? k.node = some k ∧ Visited n k.node ∧ k.Encloses m := by
  induction h with
  | here n =>
    refine iff_of_false List.not_mem_nil ?_
    rintro ⟨hk, hnk, hkn⟩
    -- A loop that is visited from `n` does not enclose `n`.
    obtain ⟨d, hd, hdn⟩ := (CountedLoop.encloses_iff_exists_mem_parts hk).mp hkn
    exact not_mem_preorder_of_mem_parts hd (mem_preorder_trans hdn.mem_preorder hnk.mem_preorder)
  | @loop n c m l before rest loops es hl hp h ih =>
    have hc := mem_parts_of_eq hp
    have hnode := CountedLoop.node_of_ofNode? hl
    rw [List.mem_cons, ih]
    constructor
    · rintro (rfl | ⟨hk, hck, hkm⟩)
      · rw [hnode]
        exact ⟨hl, .root, (CountedLoop.encloses_iff_exists_mem_parts hl).mpr ⟨c, hc, h.visited⟩⟩
      · exact ⟨hk, hck.of_part hc, hkm⟩
    · rintro ⟨hk, hnk, hkm⟩
      rcases hkm.eq_or_visited_part hk hc h.visited hnk with heq | hck
      · rw [heq, hl] at hk
        exact Or.inl (Option.some.inj hk).symm
      · exact Or.inr ⟨hk, hck, hkm⟩
  | @inner n c m before rest loops es hl hb hp h ih =>
    have hc := mem_parts_of_eq hp
    rw [ih]
    constructor
    · rintro ⟨hk, hck, hkm⟩
      exact ⟨hk, hck.of_part hc, hkm⟩
    · rintro ⟨hk, hnk, hkm⟩
      rcases hkm.eq_or_visited_part hk hc h.visited hnk with heq | hck
      · rw [heq, hl] at hk
        cases hk
      · exact ⟨hk, hck, hkm⟩

/-- When the walk comes to a node, the loops on the way are on the stack, on top of those that were
open at the start. -/
lemma Reaches.map_loop_opened (h : Reaches n loops es m) (hrun : w.run s es = .ok w') :
    w'.opened.map (·.loop) = loops.reverse ++ w.opened.map (·.loop) := by
  induction h generalizing w with
  | here n =>
    cases hrun
    rfl
  | @loop n c m l before rest loops es hl hp _ ih =>
    rw [Walk.run_enter_cons] at hrun
    obtain ⟨v, hv, hrun⟩ := Walk.run_append_eq_ok_iff.mp hrun
    rw [ih hrun, (Walk.keeps_of_run_flatMap_events hv).map_loop_opened]
    simp
  | inner hl hb hp _ ih =>
    obtain ⟨v, hv, hrun⟩ := Walk.run_append_eq_ok_iff.mp hrun
    rw [ih hrun, (Walk.keeps_of_run_flatMap_events hv).map_loop_opened]

/-- The loops on the way stand in each other, the outermost first. -/
lemma Reaches.pairwise_encloses (h : Reaches n loops es m) :
    loops.Pairwise fun k l => k.Encloses l.node := by
  induction h with
  | here n => exact .nil
  | @loop n c m l before rest loops es hl hp h ih =>
    refine .cons (fun k hk => ?_) ih
    have hck := (h.mem_loops_iff.mp hk).2.1
    have hl' : CountedLoop.ofNode? l.node = some l := by rwa [CountedLoop.node_of_ofNode? hl]
    rw [CountedLoop.encloses_iff_exists_mem_parts hl', CountedLoop.node_of_ofNode? hl]
    exact ⟨c, mem_parts_of_eq hp, hck⟩
  | inner _ _ _ _ ih => exact ih

end Node

/-! ### The log -/

/-- What is said when the loop opens, as one of the given number of open loops. -/
def CountedLoop.opening (l : CountedLoop) (depth : Nat) : LogEntry :=
  ⟨.trace, .loops, s!"Tracking index `{l.index}` of loop at " ++
    s!"{l.node.label.start.row + 1}:{l.node.label.start.column + 1} (depth {depth})"⟩

namespace Walk

variable {e : LogEntry}

/-- An entry is logged at the first event, or at a later one if the walk comes through the first. -/
lemma mem_log_cons_iff {v : Event} {vs : List Event} :
    e ∈ w.log s (v :: vs) ↔ e ∈ w.remarks v ∨ ∃ w', w.step s v = .ok w' ∧ e ∈ w'.log s vs := by
  rw [log, List.mem_append]
  cases w.step s v <;> simp

/-- A walk over two lists of events logs what it logs over the first and, if it gets through, what
it then logs over the second. -/
lemma mem_log_append_iff {us vs : List Event} :
    e ∈ w.log s (us ++ vs) ↔
      e ∈ w.log s us ∨ ∃ w', w.run s us = .ok w' ∧ e ∈ w'.log s vs := by
  induction us generalizing w with
  | nil => simp [log]
  | cons u us ih =>
    rw [List.cons_append, mem_log_cons_iff, mem_log_cons_iff, run_cons]
    cases w.step s u <;> simp [ih, Except.bind, or_assoc]

/-- An entry for a row of nodes is logged at one of them, once the walk came through those before.
-/
lemma mem_log_flatMap_iff {cs : List Node} :
    e ∈ w.log s (cs.flatMap Node.events) ↔
      ∃ before c rest w', cs = before ++ c :: rest ∧
        w.run s (before.flatMap Node.events) = .ok w' ∧ e ∈ w'.log s c.events := by
  induction cs generalizing w with
  | nil => simp [log]
  | cons d cs ih =>
    rw [List.flatMap_cons, mem_log_append_iff]
    constructor
    · rintro (h | ⟨v, hv, h⟩)
      · exact ⟨[], d, cs, w, rfl, rfl, h⟩
      · obtain ⟨before, c, rest, w', rfl, hw', h⟩ := ih.mp h
        refine ⟨d :: before, c, rest, w', rfl, ?_, h⟩
        exact run_append_eq_ok_iff.mpr ⟨v, hv, hw'⟩
    · rintro ⟨before, c, rest, w', hcs, hw', h⟩
      rcases List.cons_eq_append_iff.mp hcs with ⟨rfl, hcr⟩ | ⟨before', rfl, hcs'⟩
      · cases hcr
        cases hw'
        exact Or.inl h
      · obtain ⟨v, hv, hw'⟩ := run_append_eq_ok_iff.mp hw'
        exact Or.inr ⟨v, hv, ih.mpr ⟨before', c, rest, w', hcs', hw', h⟩⟩

/-- When a loop is entered, its opening is logged with the number of loops that are open then. -/
lemma remarks_enter (w : Walk) (l : CountedLoop) :
    w.remarks (.enter l) = [l.opening (w.opened.length + 1)] := rfl

/-- A single event is logged with its own remarks. -/
@[simp] lemma log_singleton (v : Event) : w.log s [v] = w.remarks v := by
  rw [log]
  cases w.step s v <;> exact List.append_nil _

/-- The entry is about a loop that the walk comes to from `n`, and tells the number of loops that
are open then. -/
def Tracks (s : Suppression) (w : Walk) (n : Node) (e : LogEntry) : Prop :=
  ∃ loops es l w', n.Reaches loops es l.node ∧ CountedLoop.ofNode? l.node = some l ∧
    w.run s es = .ok w' ∧ e = l.opening (w.opened.length + loops.length + 1)

/-- The walk logs a counted loop that it starts from. -/
lemma tracks_self (hl : CountedLoop.ofNode? n = some l) :
    w.Tracks s n (l.opening (w.opened.length + 1)) := by
  obtain rfl := CountedLoop.node_of_ofNode? hl
  exact ⟨[], [], l, w, .here l.node, hl, rfl, rfl⟩

/-- Inside a counted loop one loop more is open. -/
lemma Tracks.of_loop {before rest : List Node} (hl : CountedLoop.ofNode? n = some l)
    (hp : n.parts = before ++ c :: rest)
    (hrun : run s ⟨⟨l, true⟩ :: w.opened, w.found⟩ (before.flatMap Node.events) = .ok w')
    (h : w'.Tracks s c e) : w.Tracks s n e := by
  obtain ⟨loops, es, k, v, hr, hk, hv, rfl⟩ := h
  refine ⟨l :: loops, _, k, v, .loop hl hp hr, hk, ?_, ?_⟩
  · rw [run_enter_cons]
    exact run_append_eq_ok_iff.mpr ⟨w', hrun, hv⟩
  · have hlen := (keeps_of_run_flatMap_events hrun).opened.length_eq
    rw [List.length_cons] at hlen ⊢
    rw [← hlen]
    congr 1
    omega

/-- In any other node as many loops are open as before. -/
lemma Tracks.of_inner {before rest : List Node} (hl : CountedLoop.ofNode? n = none)
    (hb : n.lacksBody = false) (hp : n.parts = before ++ c :: rest)
    (hrun : w.run s (before.flatMap Node.events) = .ok w') (h : w'.Tracks s c e) :
    w.Tracks s n e := by
  obtain ⟨loops, es, k, v, hr, hk, hv, rfl⟩ := h
  refine ⟨loops, _, k, v, .inner hl hb hp hr, hk, ?_, ?_⟩
  · exact run_append_eq_ok_iff.mpr ⟨w', hrun, hv⟩
  · rw [(keeps_of_run_flatMap_events hrun).opened.length_eq]

/-- What is logged on the way, from any state, is about loops that the walk comes to. -/
lemma tracks_of_mem_log (he : e ∈ w.log s n.events) : w.Tracks s n e := by
  induction n using Node.visitInduction generalizing w with
  | step n ih =>
    cases hl : CountedLoop.ofNode? n with
    | some l =>
      rw [Node.events_of_loop hl, mem_log_cons_iff, remarks_enter, List.mem_singleton] at he
      rcases he with rfl | ⟨v, hv, he⟩
      · exact tracks_self hl
      · cases hv
        rcases mem_log_append_iff.mp he with he | ⟨v, -, he⟩
        · obtain ⟨before, c, rest, w', hp, hrun, he⟩ := mem_log_flatMap_iff.mp he
          exact (ih c (Node.mem_parts_of_eq hp) he).of_loop hl hp hrun
        · simp [remarks] at he
    | none =>
      rw [Node.events_of_no_loop hl] at he
      cases hb : n.lacksBody with
      | true => simp [hb, remarks] at he
      | false =>
        cases href : n.isReference with
        | true => simp [hb, href, remarks] at he
        | false =>
          simp only [hb, href, Bool.false_eq_true, if_false] at he
          obtain ⟨before, c, rest, w', hp, hrun, he⟩ := mem_log_flatMap_iff.mp he
          exact (ih c (Node.mem_parts_of_eq hp) he).of_inner hl hb hp hrun

/-- Every loop that the walk comes to is logged. -/
lemma Tracks.mem_log (h : w.Tracks s n e) : e ∈ w.log s n.events := by
  obtain ⟨loops, es, l, w', hr, hl, hw', rfl⟩ := h
  obtain ⟨fs, hfs⟩ := hr.exists_events_eq
  have hlen : w'.opened.length = w.opened.length + loops.length := by
    have hmap := congrArg List.length (hr.map_loop_opened hw')
    simpa [Nat.add_comm] using hmap
  -- The loop's own events begin with its opening.
  rw [hfs, List.append_assoc, mem_log_append_iff]
  refine Or.inr ⟨w', hw', ?_⟩
  rw [Node.events_of_loop hl, List.cons_append, mem_log_cons_iff, remarks_enter, hlen]
  exact Or.inl List.mem_cons_self

/-- An entry is logged on a walk over a node exactly if it is about a loop there. -/
lemma mem_log_events_iff : e ∈ w.log s n.events ↔ w.Tracks s n e :=
  ⟨tracks_of_mem_log, Tracks.mem_log⟩

end Walk

/-- The loops that the log speaks of are those that the check comes to. -/
lemma mem_checkNode_log_iff {source : String} {root : Node} {e : LogEntry}
    (ho : e.origin = .loops) :
    e ∈ (checkNode source root).log ↔
      (Suppression.ofTree source root.focus).wholeFile = false ∧
        ∃ loops es l w, root.Reaches loops es l.node ∧ CountedLoop.ofNode? l.node = some l ∧
          Walk.start.run (Suppression.ofTree source root.focus) es = .ok w ∧
            e = l.opening (loops.length + 1) := by
  cases hw : (Suppression.ofTree source root.focus).wholeFile with
  | true =>
    simp only [checkNode, hw, if_true, List.mem_singleton, Bool.true_eq_false, false_and,
      iff_false]
    rintro rfl
    cases ho
  | false =>
    simp only [checkNode, hw, Bool.false_eq_true, if_false, true_and]
    rw [Walk.mem_log_events_iff]
    simp [Walk.Tracks, Walk.start]

/-- The check fails exactly if the file is not skipped as a whole and a visited `for` statement has
no body. -/
lemma exists_checkNode_eq_error_iff (source : String) (root : Node) :
    (∃ e, (checkNode source root).value = .error e) ↔
      (∀ c ∈ root.focus.comments, Directive.ofComment? c.text ≠ some .ignoreFile) ∧
        ∃ m, root.Visited m ∧ m.lacksBody = true := by
  cases hw : (Suppression.ofTree source root.focus).wholeFile with
  | true =>
    obtain ⟨c, hc, hd⟩ := (Suppression.wholeFile_eq_true_iff source root.focus).mp hw
    rw [checkNode_value_of_wholeFile hw]
    simp only [reduceCtorEq, exists_false, false_iff]
    rintro ⟨hfile, -⟩
    exact hfile c hc hd
  | false =>
    have hfile : ∀ c ∈ root.focus.comments, Directive.ofComment? c.text ≠ some .ignoreFile := by
      intro c hc hd
      rw [(Suppression.wholeFile_eq_true_iff source root.focus).mpr ⟨c, hc, hd⟩] at hw
      cases hw
    rw [checkNode_value hw]
    by_cases hc : root.Complete
    · rw [if_pos hc]
      simp only [reduceCtorEq, exists_false, false_iff]
      rintro ⟨-, m, hm, hb⟩
      rw [hc m hm] at hb
      cases hb
    · rw [if_neg hc]
      simp only [Node.Complete, not_forall, Bool.not_eq_false] at hc
      obtain ⟨m, hm, hb⟩ := hc
      exact iff_of_true ⟨_, rfl⟩ ⟨hfile, m, hm, hb⟩

/-- The stack of open loops, in every walk and in every check.

A walk over any node, from any state, keeps the open loops.  When the check comes to a node, the
open loops are those on the way to it, which are the visited loops around it, the outermost at the
bottom; it does come to every visited node that is not inside a `for` statement without a body.  The
log gives their number.  No loop is closed that was not opened, none is open at the end, and the
check fails only for a missing body.  (The silenced rows and the source are parameters of a walk,
and thus never change in it.) -/
theorem checkNode_opened_eq_enclosing_loops (source : String) (root : Node) :
    (∀ s (n : Node) w w', Walk.run s w n.events = .ok w' → w.Keeps w') ∧
      (∀ m, root.Visited m →
        (∀ t, root.Visited t → t.Visited m → t ≠ m → t.lacksBody = false) →
          ∃ loops es, root.Reaches loops es m) ∧
      (∀ loops es m, root.Reaches loops es m →
        (∃ fs, root.events = es ++ m.events ++ fs) ∧
          (∀ s w, Walk.start.run s es = .ok w → w.opened.map (·.loop) = loops.reverse) ∧
          loops.Pairwise (fun k l => k.Encloses l.node) ∧
          ∀ k, k ∈ loops ↔
            CountedLoop.ofNode? k.node = some k ∧ root.Visited k.node ∧ k.Encloses m) ∧
      (∀ e, e.origin = .loops →
        (e ∈ (checkNode source root).log ↔
          (Suppression.ofTree source root.focus).wholeFile = false ∧
            ∃ loops es l w, root.Reaches loops es l.node ∧ CountedLoop.ofNode? l.node = some l ∧
              Walk.start.run (Suppression.ofTree source root.focus) es = .ok w ∧
                e = l.opening (loops.length + 1))) ∧
      (checkNode source root).value ≠ .error .notOpened ∧
      (∀ s w, Walk.start.run s root.events = .ok w → w.opened = []) ∧
      ((∃ e, (checkNode source root).value = .error e) ↔
        (∀ c ∈ root.focus.comments, Directive.ofComment? c.text ≠ some .ignoreFile) ∧
          ∃ m, root.Visited m ∧ m.lacksBody = true) := by
  refine ⟨fun s n w w' => Walk.keeps_of_run_events, fun m => Node.Visited.exists_reaches,
    fun loops es m h => ?_, fun e => mem_checkNode_log_iff, ?_, fun s w hrun => ?_,
    exists_checkNode_eq_error_iff source root⟩
  · refine ⟨h.exists_events_eq, fun s w hrun => ?_, h.pairwise_encloses, fun k => h.mem_loops_iff⟩
    rw [h.map_loop_opened hrun]
    exact List.append_nil _
  · cases hw : (Suppression.ofTree source root.focus).wholeFile with
    | true => simp [checkNode_value_of_wholeFile hw]
    | false =>
      rw [checkNode_value hw]
      split <;> simp
  · have hopened := (Walk.keeps_of_run_events hrun).opened
    exact List.forall₂_nil_left_iff.mp hopened

end LoopLint
