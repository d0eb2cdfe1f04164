import LoopLint.Proofs.Command.Run
import LoopLint.Proofs.Discovery.Found
import LoopLint.Proofs.Loop.Placement

/-!
# The diagnostics of a run are strictly increasing

The diagnostics that a run reports are in order, and no two of them compare equal.  Four facts make
this up.  The paths to check differ in their components, since repetitions are dropped.  They are
canonical, so they still differ when they are seen from the working directory, and this is how the
diagnostics name them.  Within a file no two diagnostics start at the same place, since no two loops
do.  And sorting makes a list strictly increasing whose items differ in the comparison.

The checks come in the order of the paths, and within a file from the inside out; so it is the last
step that puts them in order, and the others that make the order strict.
-/

namespace LoopLint

/-! ### The diagnostics of one file -/

/-- The diagnostics for a file are those for the tree of some text, with the name of the file. -/
lemma exists_of_checkText {parse : Parser} {file : Path} {source : String} {ds : List Diagnostic}
    (h : (checkText parse file source).value = .ok ds) :
    ∃ language t found, parse language source = some t ∧
      (checkNode source (Node.ofTree t)).value = .ok found ∧
      ds = found.map fun d => { d with filename := file } := by
  unfold checkText at h
  split at h
  · cases h
  · next language hlanguage =>
    split at h
    · cases h
    · next t ht =>
      rw [Logged.value_bind] at h
      split at h
      · cases h
      · next found hfound =>
        obtain rfl := Except.ok.inj h
        exact ⟨language, t, found, ht, hfound, rfl⟩

/-- The diagnostics for the file at a path come from a text, and name the path as it is seen from
the working directory. -/
lemma exists_of_mem_diagnosticsAt {env : Environment} {parse : Parser} {p : Path} {d : Diagnostic}
    (h : d ∈ diagnosticsAt env parse p) :
    ∃ source, (checkText parse ⟨env.relativize p⟩ source).value =
      .ok (diagnosticsAt env parse p) := by
  unfold diagnosticsAt checkFile at h ⊢
  cases hread : env.readText ⟨env.relativize p⟩ with
  | error e => simp [hread] at h
  | ok source =>
    refine ⟨source, ?_⟩
    cases hcheck : (checkText parse ⟨env.relativize p⟩ source).value with
    | error c => simp [hread, hcheck] at h
    | ok ds => simp [hread, hcheck]

section OneFile

variable {env : Environment} {parse : Parser} {p : Path}

/-- In a file with a properly nested tree no two diagnostics compare equal. -/
lemma pairwise_compare_ne_diagnosticsAt
    (hparse : ∀ language source t, parse language source = some t → t.Nested) :
    (diagnosticsAt env parse p).Pairwise fun a b => a.compare b ≠ .eq := by
  by_cases hnil : diagnosticsAt env parse p = []
  · rw [hnil]
    exact List.Pairwise.nil
  · obtain ⟨d, hd⟩ := List.exists_mem_of_ne_nil _ hnil
    obtain ⟨source, hsource⟩ := exists_of_mem_diagnosticsAt hd
    obtain ⟨language, t, found, ht, hfound, hds⟩ := exists_of_checkText hsource
    have hstart := pairwise_start_ne_of_checkNode (hparse language source t ht) hfound
    rw [hds, List.pairwise_map]
    refine hstart.imp ?_
    intro a b hne heq
    rw [Diagnostic.compare, Ordering.then_eq_eq, TextRange.compare, Ordering.then_eq_eq,
      Std.compare_eq_iff_eq] at heq
    exact hne heq.2.1

end OneFile

/-! ### The diagnostics of a run -/

namespace CheckOptions

variable {env : Environment} {parse : Parser} {d : Path}

/-- In a tree with proper names, the files that a run finds from a known directory have canonical
paths. -/
lemma canonical_of_mem_found (hd : env.directory = some d) (henv : env.root.Named)
    {used : Option FoundSettings} {o : CheckOptions} {p : Path} (hp : p ∈ o.found env used) :
    p.Canonical := by
  rw [found, discoverFiles_value] at hp
  obtain ⟨result, hresult, hok⟩ := List.mem_filterMap.mp hp
  obtain ⟨v, hv, hvisit⟩ := List.mem_filterMap.mp hresult
  have hcanonical := canonical_of_mem_visits henv hd hv
  cases result with
  | error message => cases hok
  | ok q =>
    obtain rfl : q = p := Option.some.inj hok
    exact hcanonical.of_result? hvisit

/-- No two diagnostics of a run compare equal. -/
lemma pairwise_compare_ne_outcomes (hd : env.directory = some d) (henv : env.root.Named)
    (hparse : ∀ language source t, parse language source = some t → t.Nested)
    (used : Option FoundSettings) (o : CheckOptions) :
    (Outcome.diagnostics (o.outcomes env parse used)).Pairwise fun a b => a.compare b ≠ .eq := by
  rw [outcomes, outcomesOf, ← found, Outcome.diagnostics_ofPaths, List.pairwise_flatMap]
  refine ⟨fun p _ => pairwise_compare_ne_diagnosticsAt hparse, ?_⟩
  have hcanonical : ∀ p ∈ Selection.sortPaths (o.found env used), p.Canonical :=
    fun p hp => canonical_of_mem_found hd henv (Selection.mem_of_mem_sortPaths hp)
  refine (Selection.pairwise_lt_sortPaths (o.found env used)).imp_of_mem ?_
  intro p q hp hq hlt a ha b hb heq
  -- Equal names stand for equal paths, but the paths differ.
  rw [Diagnostic.compare, Ordering.then_eq_eq, filename_of_mem_diagnosticsAt ha,
    filename_of_mem_diagnosticsAt hb, Path.compare_eq_eq_iff, Environment.relativize,
    Environment.relativize, hd] at heq
  obtain rfl := (hcanonical p hp).eq_of_components_relativize_eq (hcanonical q hq) heq.1
  rw [Path.compare_eq_eq_iff.mpr rfl] at hlt
  cases hlt

/-- A run over a file tree with proper names, from a known directory and with properly nested syntax
trees, reports its diagnostics in strict order: they are all those of the files that it checked,
each comes before the next, and no two compare equal.  This holds for all paths that it may be
given, and for all settings that it may find. -/
theorem run_reports_in_strict_order (env : Environment) (parse : Parser) (color : Bool)
    (elapsed : String) (o : CheckOptions) (d : Path) (hd : env.directory = some d)
    (henv : env.root.Named)
    (hparse : ∀ language source t, parse language source = some t → t.Nested)
    (r : CommandResult) (hrun : (o.run env parse color elapsed).value = .ok r) :
    ∃ used ds, o.usedSettings env = .ok used ∧
      ds.Pairwise (fun a b => a.compare b = .lt) ∧
      ds.Perm (Outcome.diagnostics (o.outcomes env parse used)) ∧
      (o.found env used = [] ∧ r = nothingFound color ∨
        ∃ report, report =
            Report.make env o.format color ds (sortFailures (Outcome.failures
              (o.outcomes env parse used))) ∧
          r.output = report.written ++ report.printed ++
            o.remarks (remoteSettings? env used) elapsed ∧
          r.errors = report.errors) := by
  obtain ⟨used, hused, hresult⟩ := run_eq_ok hrun
  refine ⟨used, o.reported env parse used, hused, ?_, List.mergeSort_perm _ _, ?_⟩
  · exact pairwise_lt_mergeSort Diagnostic.compare
      (pairwise_compare_ne_outcomes hd henv hparse used o)
  · rcases hresult with hnone | ⟨-, houtput, herrors, -⟩
    · exact .inl hnone
    · exact .inr ⟨o.report env parse color used, rfl, houtput, herrors⟩

/-- The run over `loopsWorld` is given each file at least twice.  Its two diagnostics are reported
once, and in strict order. -/
theorem loopsWorld_reports_in_strict_order :
    loopsWorld.directory = some ⟨"/"⟩ ∧ loopsWorld.root.Named ∧
      (∀ language source t, nestedParser language source = some t → t.Nested) ∧
      ∃ r ds, (loopsOptions.run loopsWorld nestedParser false "0s").value = .ok r ∧
        ds.length = 2 ∧ ds.Pairwise (fun a b => a.compare b = .lt) ∧
        r.output = (Report.json ds (sortFailures (Outcome.failures
          (loopsOptions.outcomes loopsWorld nestedParser none)))).written := by
  have hnamed : loopsWorld.root.Named := by decide +kernel
  have hparse : ∀ language source t, nestedParser language source = some t → t.Nested := by
    intro language source t ht
    rw [nestedParser] at ht
    split at ht
    · obtain rfl := Option.some.inj ht
      decide +kernel
    · cases ht
  obtain ⟨r, hrun⟩ := exists_run_loopsWorld
  obtain ⟨used, ds, hused, hlt, hperm, hresult⟩ := run_reports_in_strict_order loopsWorld
    nestedParser false "0s" loopsOptions ⟨"/"⟩ rfl hnamed hparse r hrun
  obtain rfl : none = used := by
    rw [usedSettings_loopsWorld] at hused
    exact Except.ok.inj hused
  refine ⟨rfl, hnamed, hparse, r, ds, hrun, ?_, hlt, ?_⟩
  · rw [hperm.length_eq, length_outcomes_loopsWorld.1]
  · rcases hresult with ⟨hnone, -⟩ | ⟨report, rfl, houtput, -⟩
    · rw [found_loopsWorld] at hnone
      cases hnone
    · rw [houtput]
      exact String.append_empty.trans String.append_empty

end CheckOptions
end LoopLint
