import LoopLint.Check
import LoopLint.Environment.Basic

/-!
# Checking files

Each file is checked on its own: it gives its diagnostics, or the reason why it could not be
checked.
-/

namespace LoopLint

/-- What checking a file gave. -/
structure Outcome where
  file : String
  result : Except Failure (List Diagnostic)

/-- The diagnostics for the file at a path.  The file is named as seen from the working directory.
-/
def checkFile (env : Environment) (parse : Parser) (p : Path) :
    Logged (Except Failure (List Diagnostic)) :=
  let file : Path := ⟨env.relativize p⟩
  match env.readText file with
  | .error e => pure (.error ((Failure.of (.file e)).within ("Failed to read file: " ++ file.text)))
  | .ok source => do
    match ← checkText parse file source with
    | .error c =>
      pure (.error ((Failure.of c).within ("Failed to get checks for file: " ++ file.text)))
    | .ok ds => pure (.ok ds)

namespace Outcome

/-- The outcome for the file at a path. -/
def ofPath (env : Environment) (parse : Parser) (p : Path) : Logged Outcome := do
  let result ← checkFile env parse p
  pure ⟨env.relativize p, result⟩

/-- The outcomes for some files, in the order of their paths. -/
def ofPaths (env : Environment) (parse : Parser) (paths : List Path) : Logged (List Outcome) :=
  paths.mapM (ofPath env parse)

/-- The diagnostics of the files that could be checked. -/
def diagnostics (outcomes : List Outcome) : List Diagnostic :=
  outcomes.flatMap fun o =>
    match o.result with
    | .ok ds => ds
    | .error _ => []

/-- The files that could not be checked, and why. -/
def failures (outcomes : List Outcome) : List (String × Failure) :=
  outcomes.filterMap fun o =>
    match o.result with
    | .ok _ => none
    | .error f => some (o.file, f)

end Outcome
end LoopLint
