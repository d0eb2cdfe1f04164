import LoopLint.Proofs.Command.Outcomes

/-!
# What a run of the check does

A run has four parts: it looks for settings, it finds files with them, it checks the files in order,
and it reports.  `CheckOptions.run_value` says what comes out, without the log: a run gives up only
where the settings cannot be read, it says that there is nothing to check where no file is found,
and otherwise it reports on the outcomes of the files that were found.  Everything that is said of
runs elsewhere rests on this equation, and on `CheckOptions.run_value_eq_conclude`, which cuts a run
in two behind its search.
-/

namespace LoopLint

namespace CheckOptions

/-- The settings that a run uses. -/
def usedSettings (env : Environment) (o : CheckOptions) :
    Except SettingsError (Option FoundSettings) :=
  (FoundSettings.discover env o.paths).value.map fun found => (FoundSettings.choose found).value

/-- The files that a run finds with some settings, as often as it comes across them. -/
def found (env : Environment) (used : Option FoundSettings) (o : CheckOptions) : List Path :=
  (foundFiles (discoverFiles env used o.noDefaultExclude o.paths).value).value

/-- The outcomes for the files among the results of a search. -/
def outcomesOf (env : Environment) (parse : Parser) (results : List (Except String Path)) :
    List Outcome :=
  (Outcome.ofPaths env parse (Selection.sortPaths (foundFiles results).value)).value

/-- The outcomes for the files that a run finds with some settings. -/
def outcomes (env : Environment) (parse : Parser) (used : Option FoundSettings)
    (o : CheckOptions) : List Outcome :=
  outcomesOf env parse (discoverFiles env used o.noDefaultExclude o.paths).value

/-- The diagnostics that a run hands to its report. -/
def reported (env : Environment) (parse : Parser) (used : Option FoundSettings)
    (o : CheckOptions) : List Diagnostic :=
  Diagnostic.sort (Outcome.diagnostics (o.outcomes env parse used))

/-- The failures that a run hands to its report. -/
def failed (env : Environment) (parse : Parser) (used : Option FoundSettings)
    (o : CheckOptions) : List (String × Failure) :=
  sortFailures (Outcome.failures (o.outcomes env parse used))

/-- The report of a run. -/
def report (env : Environment) (parse : Parser) (color : Bool) (used : Option FoundSettings)
    (o : CheckOptions) : Report :=
  Report.make env o.format color (o.reported env parse used) (o.failed env parse used)

/-- Where no path is given, no file is found. -/
lemma paths_ne_nil_of_found {env : Environment} {used : Option FoundSettings} {o : CheckOptions}
    (h : o.found env used ≠ []) : o.paths.isEmpty = false := by
  by_contra hpaths
  have hnone : discoverFiles env used o.noDefaultExclude o.paths = pure [] := by
    rw [discoverFiles, if_pos (by simpa using hpaths)]
  refine h ?_
  rw [found, hnone]
  rfl

section Value

variable (env : Environment) (parse : Parser) (color : Bool) (elapsed : String) (o : CheckOptions)

/-- What comes of the results of a search. -/
lemma conclude_value (used : Option FoundSettings) (results : List (Except String Path)) :
    (o.conclude env parse color elapsed used results).value =
      if (foundFiles results).value = [] then .ok (nothingFound color)
      else match (Selection.select o.paths (foundFiles results).value).value with
        | .error c => .error (.cause c)
        | .ok selected => .ok (finish env color elapsed o (remoteSettings? env used)
            (Outcome.ofPaths env parse selected).value) := by
  rw [conclude, Logged.value_bind]
  by_cases hfiles : (foundFiles results).value = []
  · rw [if_pos hfiles, if_pos (by rw [hfiles]; rfl)]
    rfl
  · rw [if_neg hfiles, if_neg (by simpa using hfiles), Logged.value_bind]
    cases (Selection.select o.paths (foundFiles results).value).value with
    | error c => rfl
    | ok selected => rfl

/-- A run looks for settings, searches, and goes on with the results. -/
lemma run_value_eq_conclude :
    (o.run env parse color elapsed).value =
      match o.usedSettings env with
      | .error e => .error (.settings e)
      | .ok used => (o.conclude env parse color elapsed used
          (discoverFiles env used o.noDefaultExclude o.paths).value).value := by
  rw [run, usedSettings, Logged.value_bind]
  cases (FoundSettings.discover env o.paths).value with
  | error e => rfl
  | ok settings => rfl

/-- What comes out of a run. -/
theorem run_value :
    (o.run env parse color elapsed).value =
      match o.usedSettings env with
      | .error e => .error (.settings e)
      | .ok used =>
        if o.found env used = [] then .ok (nothingFound color)
        else .ok {
          status := statusOf (o.outcomes env parse used)
          output := (o.report env parse color used).written ++
            (o.report env parse color used).printed ++
            o.remarks (remoteSettings? env used) elapsed
          errors := (o.report env parse color used).errors } := by
  rw [run_value_eq_conclude]
  cases o.usedSettings env with
  | error e => rfl
  | ok used =>
    simp only
    rw [conclude_value, ← found]
    by_cases hfound : o.found env used = []
    · rw [if_pos hfound, if_pos hfound]
    · have hselected : (Selection.select o.paths (o.found env used)).value =
          .ok (Selection.sortPaths (o.found env used)) := by
        rw [Selection.select, if_neg (by simp [paths_ne_nil_of_found hfound])]
        rfl
      rw [if_neg hfound, if_neg hfound, hselected]
      rfl

end Value

/-- A run that does not give up has settings to use.  It says that there is nothing to check, or it
shows its report. -/
theorem run_eq_ok {env : Environment} {parse : Parser} {color : Bool} {elapsed : String}
    {o : CheckOptions} {r : CommandResult} (h : (o.run env parse color elapsed).value = .ok r) :
    ∃ used, o.usedSettings env = .ok used ∧
      (o.found env used = [] ∧ r = nothingFound color ∨
        o.found env used ≠ [] ∧
          r.output = (o.report env parse color used).written ++
            (o.report env parse color used).printed ++
            o.remarks (remoteSettings? env used) elapsed ∧
          r.errors = (o.report env parse color used).errors ∧
          r.status = statusOf (o.outcomes env parse used)) := by
  rw [run_value] at h
  cases hused : o.usedSettings env with
  | error e =>
    rw [hused] at h
    cases h
  | ok used =>
    refine ⟨used, rfl, ?_⟩
    rw [hused] at h
    by_cases hfound : o.found env used = []
    · simp only [hfound, if_true, Except.ok.injEq] at h
      exact .inl ⟨hfound, h.symm⟩
    · simp only [hfound, if_false, Except.ok.injEq] at h
      subst h
      exact .inr ⟨hfound, rfl, rfl, rfl⟩

end CheckOptions

/-! ### A small world

The loops of `nestedSource` in a file of a directory that also has a file with a syntax error.
-/

/-- The parser that knows `nestedSource`; all other texts have syntax errors. -/
def nestedParser : Parser := fun language source =>
  if language = .typeScript ∧ source = nestedSource then some nestedTree else none

/-- A directory with a file that has loops, a file with a syntax error, and notes. -/
def loopsWorld : Environment where
  root := .directory [("src", .directory [("b.js", .file "(".toUTF8),
    ("a.ts", .file nestedSource.toUTF8), ("notes.md", .file "x".toUTF8)])]
  directory := some ⟨"/"⟩
  vars := []

/-- A run that is given the same files three times over, and reports as data. -/
def loopsOptions : CheckOptions where
  files := [".", "src/../src", "/src//a.ts"]
  withTiming := false
  format := .json
  noDefaultExclude := false

/-- The run over `loopsWorld` finds no settings. -/
lemma usedSettings_loopsWorld : loopsOptions.usedSettings loopsWorld = .ok none :=
  eq_ok_of_toOption (by decide +kernel)

/-- The files are found several times. -/
lemma found_loopsWorld : loopsOptions.found loopsWorld none =
    [⟨"/src/b.js"⟩, ⟨"/src/a.ts"⟩, ⟨"/src/b.js"⟩, ⟨"/src/a.ts"⟩, ⟨"/src/a.ts"⟩] := by
  decide +kernel

/-- The files are checked once. -/
lemma sortPaths_found_loopsWorld : Selection.sortPaths (loopsOptions.found loopsWorld none) =
    [⟨"/src/a.ts"⟩, ⟨"/src/b.js"⟩] := by
  refine eq_of_pairwise_lt Path.compare (Selection.pairwise_lt_sortPaths _) (by decide +kernel) ?_
  intro p
  rw [found_loopsWorld, Selection.mem_sortPaths_iff (by decide +kernel)]
  simp only [List.mem_cons, List.not_mem_nil, or_false]
  tauto

/-- The outcomes of the run are those of checking the two files in order. -/
lemma outcomes_loopsWorld : loopsOptions.outcomes loopsWorld nestedParser none =
    (Outcome.ofPaths loopsWorld nestedParser [⟨"/src/a.ts"⟩, ⟨"/src/b.js"⟩]).value := by
  rw [CheckOptions.outcomes, CheckOptions.outcomesOf, ← CheckOptions.found,
    sortPaths_found_loopsWorld]

/-- One file has two loops to report, the other one cannot be checked. -/
lemma length_outcomes_loopsWorld :
    (Outcome.diagnostics (loopsOptions.outcomes loopsWorld nestedParser none)).length = 2 ∧
      (Outcome.failures (loopsOptions.outcomes loopsWorld nestedParser none)).length = 1 := by
  rw [outcomes_loopsWorld]
  decide +kernel

/-- The run over `loopsWorld` does not give up. -/
lemma exists_run_loopsWorld :
    ∃ r, (loopsOptions.run loopsWorld nestedParser false "0s").value = .ok r := by
  have hfound : loopsOptions.found loopsWorld none ≠ [] := by
    rw [found_loopsWorld]
    exact List.cons_ne_nil _ _
  rw [CheckOptions.run_value, usedSettings_loopsWorld]
  exact ⟨_, if_neg hfound⟩

end LoopLint
