import LoopLint.Discovery.Files
import LoopLint.Discovery.Selection
import LoopLint.Outcome
import LoopLint.Report.Basic

/-!
# The check command

Finds the settings and the files, checks the files, and reports.  The outcome is one of three:
nothing was found, something was found, or some file could not be checked.
-/

namespace LoopLint

/-- How a command ended. -/
inductive ExitStatus where
  /-- No findings, and all files could be checked. -/
  | success
  /-- Some findings, and all files could be checked. -/
  | failure
  /-- Some file could not be checked, or the command itself failed. -/
  | error
deriving DecidableEq, Repr

/-- The number that a program ends with. -/
def ExitStatus.code : ExitStatus → Nat
  | success => 0
  | failure => 1
  | error => 2

/-- What a check is asked to do. -/
structure CheckOptions where
  files : List String
  withTiming : Bool
  format : ReportFormat
  noDefaultExclude : Bool
deriving DecidableEq, Repr

/-- Why a command gave up. -/
inductive CommandError where
  | settings (e : SettingsError)
  | cause (c : Cause)
deriving DecidableEq, Repr

/-- What is said of it. -/
def CommandError.text : CommandError → String
  | settings e => e.text
  | cause c => c.text

/-- What a command prints, and how it ended. -/
structure CommandResult where
  status : ExitStatus
  output : String
  errors : String
deriving DecidableEq, Repr

namespace CheckOptions

/-- The given paths. -/
def paths (o : CheckOptions) : List Path :=
  o.files.map (⟨·⟩)

/-- The settings file that is used, unless it is that of the working directory. -/
def remoteSettings? (env : Environment) (used : Option FoundSettings) : Option Path :=
  match used, env.directory with
  | some s, some d => if s.directory.same d then none else s.file
  | _, _ => none

/-- What is printed if there is nothing to check. -/
def nothingFound (color : Bool) : CommandResult where
  status := .success
  output := Report.line (Ink.warningWord.paint color "Warning" ++ ": " ++
    Ink.warningText.paint color
      "No JavaScript or TypeScript files found under the given path(s).")
  errors := ""

/-- The failures in the order of their files. -/
def sortFailures (failures : List (String × Failure)) : List (String × Failure) :=
  failures.mergeSort (fun a b => (compare a.1 b.1).isLE)

/-- How the check of some files ended. -/
def statusOf (outcomes : List Outcome) : ExitStatus :=
  if !(Outcome.failures outcomes).isEmpty then .error
  else if (Outcome.diagnostics outcomes).isEmpty then .success
  else .failure

/-- Whether text may follow the report. -/
def allowsRemarks : ReportFormat → Bool
  | .full | .concise => true
  | .github | .json => false

/-- What follows the report: the settings file, and how long it took. -/
def remarks (o : CheckOptions) (remote : Option Path) (elapsed : String) : String :=
  if allowsRemarks o.format then
    (match remote with
      | some p => "\n" ++ Report.line ("Used '" ++ p.text ++ "'")
      | none => "") ++
      (if o.withTiming then "\n" ++ Report.line ("Checked files in: " ++ elapsed) else "")
  else ""

/-- The report on some files and how the command ended. -/
def finish (env : Environment) (color : Bool) (elapsed : String) (o : CheckOptions)
    (remote : Option Path) (outcomes : List Outcome) : CommandResult :=
  let report := Report.make env o.format color (Diagnostic.sort (Outcome.diagnostics outcomes))
    (sortFailures (Outcome.failures outcomes))
  { status := statusOf outcomes
    output := report.written ++ report.printed ++ o.remarks remote elapsed
    errors := report.errors }

/-- The files that were found; what went wrong on the way is mentioned. -/
def foundFiles (results : List (Except String Path)) : Logged (List Path) where
  value := results.filterMap (·.toOption)
  log := results.filterMap fun
    | .ok _ => none
    | .error e => some ⟨.warn, .command, "Failed to discover files: " ++ e⟩

/-- Checks the files among the results of a search, and reports.  `elapsed` is the text for the time
that it took. -/
def conclude (env : Environment) (parse : Parser) (color : Bool) (elapsed : String)
    (o : CheckOptions) (used : Option FoundSettings) (results : List (Except String Path)) :
    Logged (Except CommandError CommandResult) := do
  let files ← foundFiles results
  if files.isEmpty then pure (.ok (nothingFound color))
  else match ← Selection.select o.paths files with
    | .error c => pure (.error (.cause c))
    | .ok selected => do
      let outcomes ← Outcome.ofPaths env parse selected
      pure (.ok (finish env color elapsed o (remoteSettings? env used) outcomes))

/-- Runs the check. -/
def run (env : Environment) (parse : Parser) (color : Bool) (elapsed : String) (o : CheckOptions) :
    Logged (Except CommandError CommandResult) := do
  match ← FoundSettings.discover env o.paths with
  | .error e => pure (.error (.settings e))
  | .ok found => do
    let used ← FoundSettings.choose found
    let results ← discoverFiles env used o.noDefaultExclude o.paths
    o.conclude env parse color elapsed used results

end CheckOptions
end LoopLint
