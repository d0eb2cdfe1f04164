import LoopLint.Diagnostic.Json
import LoopLint.Environment.Basic
import LoopLint.Report.Format
import LoopLint.Report.Snippet

/-!
# Reports

What is shown of the findings and of the files that could not be checked.  A report has three texts:
the one written to the place of the report, the one printed behind it, and the one for errors.
-/

namespace LoopLint

/-- The texts of a report. -/
structure Report where
  written : String
  printed : String
  errors : String
deriving DecidableEq, Repr

namespace Report

/-- A text on a line of its own. -/
def line (s : String) : String := s ++ "\n"

/-- What is said of a file that could not be checked.  Syntax errors come without their contexts,
since they name the file themselves. -/
def errorLine (color : Bool) (f : Failure) : String :=
  let message := match f.cause with
    | .syntaxErrors _ => f.cause.text
    | _ => f.text
  line (Ink.errorWord.paint color "Error" ++ ": " ++ message)

/-- What is said of all files that could not be checked. -/
def errorLines (color : Bool) (failures : List (String × Failure)) : String :=
  String.join (failures.map fun e => errorLine color e.2)

/-- How many findings there are; that all is well is said only if all files could be checked. -/
def summary (count : Nat) (failures : List (String × Failure)) : String :=
  if 1 < count then line ("Found " ++ toString count ++ " errors.")
  else if count = 1 then line "Found 1 error."
  else if failures.isEmpty then line "All checks passed!"
  else ""

/-- The name of a file as seen from the working directory.  Among paths that are the same, the first
one gives the name for all. -/
def fileName (env : Environment) (all : List Path) (p : Path) : String :=
  env.relativize ((all.find? p.same).getD p)

/-! ### One line for each finding -/

/-- The line of a finding; one without a place has none. -/
def conciseLine (color : Bool) (name : Path → String) (d : Diagnostic) : String :=
  match d.location with
  | none => ""
  | some place =>
    line (Ink.file.paint color (name d.filename) ++ " [" ++ toString place.row ++ ":" ++
      toString (place.column + 1) ++ "] " ++ Ink.rule.paint color d.message.name ++ " " ++
      d.message.full)

/-- The report with one line for each finding. -/
def concise (env : Environment) (color : Bool) (ds : List Diagnostic)
    (failures : List (String × Failure)) : Report :=
  let placed := (ds.filter (·.location.isSome)).map (·.filename)
  { written := String.join (ds.map (conciseLine color (fileName env placed)))
    printed := (if ds.isEmpty then "" else "\n") ++ summary ds.length failures
    errors := errorLines color failures }

/-! ### Annotations -/

/-- The command that annotates a finding; one without a place has none. -/
def githubLine (d : Diagnostic) : String :=
  match d.location with
  | none => ""
  | some place =>
    let row := toString place.row
    let column := toString (place.column + 1)
    let file := d.filename.text
    line ("::warning title=forof (" ++ d.message.name ++ "),file=" ++ file ++ ",line=" ++ row ++
      ",col=" ++ column ++ "::" ++ file ++ ":" ++ row ++ ":" ++ column ++ " [" ++ d.message.name ++
      "] " ++ d.message.full)

/-- The command that reports a file that could not be checked. -/
def githubError (e : String × Failure) : String :=
  line ("::error file=" ++ e.1 ++ "::" ++ e.2.cause.text)

/-- The report as commands for annotations. -/
def github (ds : List Diagnostic) (failures : List (String × Failure)) : Report where
  written := String.join (ds.map githubLine) ++ String.join (failures.map githubError)
  printed := ""
  errors := ""

/-! ### Data -/

/-- The findings and the files that could not be checked, as data. -/
def toJson (ds : List Diagnostic) (failures : List (String × Failure)) : Json :=
  .obj [("diagnostics", .arr (ds.map (·.toJson))),
    ("errors", .arr (failures.map fun e => .obj [("file", .str e.1), ("error", .str e.2.text)]))]

/-- The report as data. -/
def json (ds : List Diagnostic) (failures : List (String × Failure)) : Report where
  written := line (toJson ds failures).pretty
  printed := ""
  errors := ""

/-! ### Findings with their source lines -/

/-- The source text of a file.  Of paths that are the same, the first one that can be read is read.
-/
def source? (env : Environment) (all : List Path) (p : Path) : Option String :=
  (all.filter p.same).findSome? (fun q => (env.readText q).toOption)

/-- The files that cannot be read, once for each time they are needed.  A path is not read again
once the same file has been read. -/
def unreadable (env : Environment) (earlier : List Path) : List Path → List (Path × FileError)
  | [] => []
  | p :: ps =>
    let rest := unreadable env (earlier ++ [p]) ps
    if (source? env earlier p).isSome then rest
    else match env.readText p with
      | .error e => (p, e) :: rest
      | .ok _ => rest

/-- What is said of a file that cannot be read. -/
def unreadableLine (e : Path × FileError) : String :=
  line ("Warning: Could not read source file " ++ e.1.text ++ ": " ++ e.2.text)

/-- A finding with its source lines. -/
def snippet (color : Bool) (name : Path → String) (d : Diagnostic) (source : String) : String :=
  Snippet.render color (name d.filename) source d.range d.message ++ "\n\n"

/-- The report with source lines.  Findings in files that cannot be read are left out. -/
def full (env : Environment) (color : Bool) (ds : List Diagnostic)
    (failures : List (String × Failure)) : Report :=
  let files := ds.map (·.filename)
  let found := ds.filterMap fun d => (source? env files d.filename).map fun s => (d, s)
  let name := fileName env (found.map (·.1.filename))
  { written := String.join (found.map fun (d, s) => snippet color name d s)
    printed := summary found.length failures
    errors := errorLines color failures ++
      (if failures.isEmpty || ds.isEmpty then "" else "\n") ++
      String.join ((unreadable env [] files).map unreadableLine) }

/-- The report in a format. -/
def make (env : Environment) (format : ReportFormat) (color : Bool) (ds : List Diagnostic)
    (failures : List (String × Failure)) : Report :=
  match format with
  | .full => full env color ds failures
  | .concise => concise env color ds failures
  | .github => github ds failures
  | .json => json ds failures

end Report
end LoopLint
