import LoopLint.Failure
import LoopLint.Log.Entry

/-!
# The files to check

The paths that were found, in order and each of them once.  Paths are the same if their components
are.
-/

namespace LoopLint.Selection

/-- The paths behind `p` without those that repeat the one before them. -/
def dropRepeatsAfter (p : Path) : List Path → List Path
  | [] => []
  | q :: qs => if p.same q then dropRepeatsAfter p qs else q :: dropRepeatsAfter q qs

/-- The first path of each run of equal paths. -/
def dropRepeats : List Path → List Path
  | [] => []
  | p :: ps => p :: dropRepeatsAfter p ps

/-- The paths in order, each of them once and spelled as it was first. -/
def sortPaths (paths : List Path) : List Path :=
  dropRepeats (paths.mergeSort (fun p q => (p.compare q).isLE))

/-- The files to check, given the paths that were asked for and those that were found. -/
def select (asked found : List Path) : Logged (Except Cause (List Path)) :=
  if asked.isEmpty then pure (.error (.other "No paths to check were provided."))
  else do
    let paths := sortPaths found
    Logged.say .debug .config ("Checking " ++ toString paths.length ++ " file(s)")
    pure (.ok paths)

end LoopLint.Selection
