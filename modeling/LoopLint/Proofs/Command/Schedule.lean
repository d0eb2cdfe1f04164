import LoopLint.Proofs.Command.Run
import LoopLint.Proofs.Discovery.Workers

/-!
# The outcome does not depend on the schedule

However many workers a search has, and however they take turns, the check makes the same of its
results.  The results themselves may come in any order: it depends on who makes which visit, on the
order of the visits of each worker, and on the order in which the workers leave.  But they are
always the same results, and the files among them are sorted before they are checked.  Sorting
restores one order because the paths are canonical: paths that are the same are spelled alike, so it
does not matter which of them is kept.

`CheckOptions.outcome_eq_of_collects` compares any two searches over the same visits.  In
particular, a run gives what it would give with any number of workers
(`CheckOptions.run_value_eq_of_collects`).
-/

namespace LoopLint.CheckOptions

/-- The files that are found are those among the results. -/
lemma mem_foundFiles_iff {results : List (Except String Path)} {p : Path} :
    p ∈ (foundFiles results).value ↔ Except.ok p ∈ results := by
  have hfiles : (foundFiles results).value = results.filterMap (·.toOption) := rfl
  rw [hfiles, List.mem_filterMap]
  constructor
  · rintro ⟨r, hr, hp⟩
    rwa [eq_ok_of_toOption hp] at hr
  · intro hp
    exact ⟨.ok p, hp, rfl⟩

section TwoSearches

variable {vs : Multiset Visit} {n m : Nat} {results results' : List (Except String Path)}

/-- Searches over the same visits find the same files. -/
lemma mem_foundFiles_congr (h : Collects vs n results) (h' : Collects vs m results') (p : Path) :
    p ∈ (foundFiles results).value ↔ p ∈ (foundFiles results').value := by
  have hsame : (results : Multiset (Except String Path)) = results' := h.coe_eq.trans h'.coe_eq.symm
  rw [mem_foundFiles_iff, mem_foundFiles_iff, ← Multiset.mem_coe, hsame, Multiset.mem_coe]

/-- Searches over the same visits find something or nothing alike. -/
lemma foundFiles_eq_nil_congr (h : Collects vs n results) (h' : Collects vs m results') :
    (foundFiles results).value = [] ↔ (foundFiles results').value = [] := by
  rw [List.eq_nil_iff_forall_not_mem, List.eq_nil_iff_forall_not_mem]
  exact forall_congr' fun p => not_congr (mem_foundFiles_congr h h' p)

/-- Searches over the same canonical visits give the same files to check, in the same order. -/
lemma sortPaths_foundFiles_congr (hvs : ∀ v ∈ vs, v.Canonical) (h : Collects vs n results)
    (h' : Collects vs m results') :
    Selection.sortPaths (foundFiles results).value =
      Selection.sortPaths (foundFiles results').value := by
  have hcanonical : ∀ p ∈ (foundFiles results).value, p.Canonical :=
    fun p hp => h.canonical hvs (mem_foundFiles_iff.mp hp)
  refine Selection.sortPaths_congr ?_ (mem_foundFiles_congr h h')
  intro p hp q hq heq
  exact (hcanonical p hp).eq_of_components_eq (hcanonical q hq) heq

/-- Searches over the same canonical visits select the same files. -/
lemma select_foundFiles_congr (hvs : ∀ v ∈ vs, v.Canonical) (h : Collects vs n results)
    (h' : Collects vs m results') (asked : List Path) :
    Selection.select asked (foundFiles results).value =
      Selection.select asked (foundFiles results').value := by
  unfold Selection.select
  rw [sortPaths_foundFiles_congr hvs h h']

/-- Searches over the same canonical visits have the same outcomes. -/
lemma outcomesOf_congr (hvs : ∀ v ∈ vs, v.Canonical) (h : Collects vs n results)
    (h' : Collects vs m results') (env : Environment) (parse : Parser) :
    outcomesOf env parse results = outcomesOf env parse results' := by
  unfold outcomesOf
  rw [sortPaths_foundFiles_congr hvs h h']

/-- Searches over the same canonical visits end in the same result. -/
lemma conclude_value_congr (hvs : ∀ v ∈ vs, v.Canonical) (h : Collects vs n results)
    (h' : Collects vs m results') (env : Environment) (parse : Parser) (color : Bool)
    (elapsed : String) (o : CheckOptions) (used : Option FoundSettings) :
    (o.conclude env parse color elapsed used results).value =
      (o.conclude env parse color elapsed used results').value := by
  rw [conclude_value, conclude_value, select_foundFiles_congr hvs h h']
  simp only [foundFiles_eq_nil_congr h h']

end TwoSearches

/-- A search makes some visits, to canonical paths.  They can be dealt out to any number of workers
in any order, and then the search comes to its end.  However the workers take turns, it ends with
exactly the results of the visits.  And of the results of any two such searches the check makes the
same: the files to check, the outcome for each of them, the diagnostics and the failures that are
reported, and what the command prints and how it ends. -/
theorem outcome_eq_of_collects (vs : Multiset Visit) (hvs : ∀ v ∈ vs, v.Canonical) :
    (∀ workers : List (List Visit), (workers.flatten : Multiset Visit) = vs →
      Collects vs workers.length (gather workers)) ∧
    ∀ n results, Collects vs n results →
      (results : Multiset (Except String Path)) = vs.filterMap Visit.result? ∧
      ∀ m results', Collects vs m results' →
        (∀ asked, Selection.select asked (foundFiles results).value =
          Selection.select asked (foundFiles results').value) ∧
        (∀ env parse,
          outcomesOf env parse results = outcomesOf env parse results' ∧
          Diagnostic.sort (Outcome.diagnostics (outcomesOf env parse results)) =
            Diagnostic.sort (Outcome.diagnostics (outcomesOf env parse results')) ∧
          sortFailures (Outcome.failures (outcomesOf env parse results)) =
            sortFailures (Outcome.failures (outcomesOf env parse results'))) ∧
        ∀ env parse color elapsed (o : CheckOptions) used,
          (o.conclude env parse color elapsed used results).value =
            (o.conclude env parse color elapsed used results').value := by
  constructor
  · rintro workers rfl
    exact collects_gather workers
  · intro n results h
    refine ⟨h.coe_eq, fun m results' h' => ?_⟩
    refine ⟨select_foundFiles_congr hvs h h', fun env parse => ?_, conclude_value_congr hvs h h'⟩
    have houtcomes := outcomesOf_congr hvs h h' env parse
    exact ⟨houtcomes, by rw [houtcomes], by rw [houtcomes]⟩

/-- The visits of the run over `loopsWorld`. -/
def loopsVisits : List Visit :=
  visits loopsWorld (Exclusion.ofSettings none loopsOptions.noDefaultExclude).value
    loopsOptions.paths

/-- Three workers, one of them idle, end with the results in another order than one worker does; but
the outcomes are the same, and the two diagnostics are found. -/
theorem outcome_eq_loopsVisits :
    (∀ v ∈ (loopsVisits : Multiset Visit), v.Canonical) ∧
      gather [loopsVisits.drop 3, [], loopsVisits.take 3] ≠ gather [loopsVisits] ∧
      outcomesOf loopsWorld nestedParser
          (gather [loopsVisits.drop 3, [], loopsVisits.take 3]) =
        outcomesOf loopsWorld nestedParser (gather [loopsVisits]) ∧
      (Outcome.diagnostics (outcomesOf loopsWorld nestedParser (gather [loopsVisits]))).length =
        2 := by
  have hcanonical : ∀ v ∈ (loopsVisits : Multiset Visit), v.Canonical :=
    fun v hv => canonical_of_mem_visits (by decide +kernel) rfl hv
  have hdealt : ([loopsVisits.drop 3, [], loopsVisits.take 3].flatten : Multiset Visit) =
      loopsVisits := by
    have hflatten : [loopsVisits.drop 3, [], loopsVisits.take 3].flatten =
        loopsVisits.drop 3 ++ loopsVisits.take 3 := by simp
    rw [hflatten, ← Multiset.coe_add, add_comm, Multiset.coe_add, List.take_append_drop]
  have hone : ([loopsVisits].flatten : Multiset Visit) = loopsVisits := by
    rw [List.flatten_singleton]
  obtain ⟨hends, hsame⟩ := outcome_eq_of_collects loopsVisits hcanonical
  obtain ⟨-, hagree⟩ := hsame _ _ (hends _ hdealt)
  obtain ⟨-, houtcomes, -⟩ := hagree _ _ (hends _ hone)
  refine ⟨hcanonical, by decide +kernel, (houtcomes loopsWorld nestedParser).1, ?_⟩
  have hrun : outcomesOf loopsWorld nestedParser (gather [loopsVisits]) =
      loopsOptions.outcomes loopsWorld nestedParser none := rfl
  rw [hrun, length_outcomes_loopsWorld.1]

/-- In a file tree with proper names, a run from a known directory gives what it gives with any
number of workers. -/
theorem run_value_eq_of_collects {env : Environment} {d : Path} (hd : env.directory = some d)
    (henv : env.root.Named) (parse : Parser) (color : Bool) (elapsed : String) {o : CheckOptions}
    {used : Option FoundSettings} (hused : o.usedSettings env = .ok used) {n : Nat}
    {results : List (Except String Path)}
    (h : Collects (visits env (Exclusion.ofSettings used o.noDefaultExclude).value o.paths) n
      results) :
    (o.run env parse color elapsed).value =
      (o.conclude env parse color elapsed used results).value := by
  have hvs : ∀ v ∈ (visits env (Exclusion.ofSettings used o.noDefaultExclude).value o.paths :
      Multiset Visit), v.Canonical :=
    fun v hv => canonical_of_mem_visits henv hd hv
  rw [run_value_eq_conclude, hused]
  exact conclude_value_congr hvs (collects_discoverFiles env used o.noDefaultExclude o.paths) h
    env parse color elapsed o used

end LoopLint.CheckOptions
