import LoopLint.Proofs.Discovery.Found
import Mathlib.Algebra.Order.Group.Multiset
import Mathlib.Data.Multiset.Filter
import Mathlib.Logic.Relation
import Mathlib.Tactic.Abel

/-!
# Several workers

A search may be done by any number of workers at the same time.  `Search` is its state: the visits
that are still ahead, what each worker has collected, and what has been handed over.  In a step some
worker makes some of the visits that are ahead, or some worker hands over what it has and leaves.
Nothing else is said of the order: workers take turns as they like, a worker may leave while others
go on, and the visits may be made in any order.

All results that a search has or will have are its `Search.content`.  No step changes it, so in the
end the shared list has exactly what the visits give, each result as often as it was given
(`Collects.coe_eq`).  The searches of `gather`, and so those of `discoverFiles`, are among the
searches of several workers (`collects_gather`).
-/

namespace LoopLint

/-- A search on its way. -/
structure Search where
  /-- The visits that no worker has made yet. -/
  ahead : Multiset Visit
  /-- What the workers have collected that have not left. -/
  workers : List (List (Except String Path))
  /-- What has been handed over. -/
  shared : List (Except String Path)

namespace Search

/-- A step of a search. -/
inductive Step : Search → Search → Prop
  /-- A worker makes a visit, and keeps the result if there is one. -/
  | visit (v : Visit) (ahead : Multiset Visit)
      (before : List (List (Except String Path))) (own : List (Except String Path))
      (after : List (List (Except String Path))) (shared : List (Except String Path)) :
      Step ⟨v ::ₘ ahead, before ++ own :: after, shared⟩
        ⟨ahead, before ++ (own ++ v.result?.toList) :: after, shared⟩
  /-- A worker hands over what it has collected, and leaves. -/
  | leave (ahead : Multiset Visit)
      (before : List (List (Except String Path))) (own : List (Except String Path))
      (after : List (List (Except String Path))) (shared : List (Except String Path)) :
      Step ⟨ahead, before ++ own :: after, shared⟩ ⟨ahead, before ++ after, handOver shared own⟩

/-- Some steps of a search. -/
def Steps : Search → Search → Prop := Relation.ReflTransGen Step

/-- The results that are shared, that some worker has, or that are ahead. -/
def content (s : Search) : Multiset (Except String Path) :=
  s.shared + s.workers.flatten + s.ahead.filterMap Visit.result?

/-- Handing over loses nothing, whichever way it is done. -/
lemma coe_handOver (shared own : List (Except String Path)) :
    (handOver shared own : Multiset (Except String Path)) = shared + own := by
  cases shared with
  | nil => simp [handOver]
  | cons r shared => simp [handOver]

/-- The result of a visit, if there is one. -/
lemma filterMap_result?_cons (v : Visit) (ahead : Multiset Visit) :
    (v ::ₘ ahead).filterMap Visit.result? =
      (v.result?.toList : Multiset (Except String Path)) + ahead.filterMap Visit.result? := by
  cases hv : v.result? with
  | none => simp [Multiset.filterMap_cons_none v ahead hv]
  | some r => simp [Multiset.filterMap_cons_some Visit.result? v ahead hv]

/-- No step loses or repeats a result. -/
lemma Step.content_eq {s t : Search} (h : Step s t) : t.content = s.content := by
  cases h with
  | visit v ahead before own after shared =>
    simp only [content, List.flatten_append, List.flatten_cons, ← Multiset.coe_add,
      filterMap_result?_cons]
    abel
  | leave ahead before own after shared =>
    simp only [content, List.flatten_append, List.flatten_cons, ← Multiset.coe_add, coe_handOver]
    abel

/-- No search loses or repeats a result. -/
theorem Steps.content_eq {s t : Search} (h : Steps s t) : t.content = s.content := by
  induction h with
  | refl => rfl
  | tail _ hstep ih => rw [hstep.content_eq, ih]

/-- A worker may make several visits in a row. -/
lemma steps_visits (vs : List Visit) (ahead : Multiset Visit) (own : List (Except String Path))
    (workers : List (List (Except String Path))) (shared : List (Except String Path)) :
    Steps ⟨vs + ahead, own :: workers, shared⟩
      ⟨ahead, (own ++ vs.filterMap Visit.result?) :: workers, shared⟩ := by
  induction vs generalizing own with
  | nil =>
    rw [Multiset.coe_nil, zero_add, List.filterMap_nil, List.append_nil]
    exact Relation.ReflTransGen.refl
  | cons v vs ih =>
    have hfirst : Step ⟨(v :: vs : List Visit) + ahead, own :: workers, shared⟩
        ⟨vs + ahead, (own ++ v.result?.toList) :: workers, shared⟩ := by
      rw [← Multiset.cons_coe, Multiset.cons_add]
      exact Step.visit v (vs + ahead) [] own workers shared
    have hrest := ih (own ++ v.result?.toList)
    have hown : own ++ v.result?.toList ++ vs.filterMap Visit.result? =
        own ++ (v :: vs).filterMap Visit.result? := by
      cases hv : v.result? <;> simp [hv]
    rw [hown] at hrest
    exact Relation.ReflTransGen.head hfirst hrest

/-- The workers may do their work and leave one after the other. -/
lemma steps_foldl_handOver (workers : List (List Visit)) (shared : List (Except String Path)) :
    Steps ⟨workers.flatten, List.replicate workers.length [], shared⟩
      ⟨0, [], (workers.map (·.filterMap Visit.result?)).foldl handOver shared⟩ := by
  induction workers generalizing shared with
  | nil => exact Relation.ReflTransGen.refl
  | cons vs workers ih =>
    have hvisits := steps_visits vs workers.flatten []
      (List.replicate workers.length []) shared
    have hleave := Step.leave workers.flatten [] (vs.filterMap Visit.result?)
      (List.replicate workers.length []) shared
    rw [List.flatten_cons, ← Multiset.coe_add, List.length_cons, List.replicate_succ]
    exact (hvisits.tail hleave).trans (ih (handOver shared (vs.filterMap Visit.result?)))

end Search

/-- Some number of workers can end a search with the given results.  They start with nothing, all
visits are made, and all workers have left. -/
def Collects (vs : Multiset Visit) (workers : Nat) (results : List (Except String Path)) : Prop :=
  Search.Steps ⟨vs, List.replicate workers [], []⟩ ⟨0, [], results⟩

/-- The results are those of the visits: none is lost, and none is there twice. -/
theorem Collects.coe_eq {vs : Multiset Visit} {workers : Nat} {results : List (Except String Path)}
    (h : Collects vs workers results) :
    (results : Multiset (Except String Path)) = vs.filterMap Visit.result? := by
  have hcontent := Search.Steps.content_eq h
  simpa [Search.content] using hcontent

/-- What workers gather one after the other is what they may gather at the same time. -/
theorem collects_gather (workers : List (List Visit)) :
    Collects workers.flatten workers.length (gather workers) :=
  Search.steps_foldl_handOver workers []

/-- A search with one worker is a search. -/
lemma collects_discoverFiles (env : Environment) (settings : Option FoundSettings)
    (noDefault : Bool) (paths : List Path) :
    Collects (visits env (Exclusion.ofSettings settings noDefault).value paths) 1
      (discoverFiles env settings noDefault paths).value := by
  have hgather := collects_gather [visits env (Exclusion.ofSettings settings noDefault).value paths]
  rw [List.flatten_singleton] at hgather
  rw [discoverFiles_value]
  exact hgather

/-- If all visits are to canonical paths, then so are all files that are found. -/
lemma Collects.canonical {vs : Multiset Visit} {workers : Nat}
    {results : List (Except String Path)} (h : Collects vs workers results)
    (hvs : ∀ v ∈ vs, v.Canonical) {p : Path} (hp : Except.ok p ∈ results) : p.Canonical := by
  rw [← Multiset.mem_coe, h.coe_eq, Multiset.mem_filterMap] at hp
  obtain ⟨v, hv, hresult⟩ := hp
  exact (hvs v hv).of_result? hresult

end LoopLint
