import LoopLint.Discovery.Settings
import LoopLint.Ignore.Scope
import LoopLint.Language

/-!
# Finding files

The files to check are those given by name, whatever they are called, and the source files in the
given directories and below.  Below a given directory an entry is left out, with all that is in it,
if an exclude pattern speaks of it, if an ignore rule does, or if it is hidden and no ignore rule
takes it back in.  Links are followed where they are given, and are files where they are found.
-/

namespace LoopLint

/-! ### Exclude patterns -/

/-- Exclude patterns and the directory that they are placed in. -/
structure Exclusion where
  place : Path
  rules : List IgnoreRule

namespace Exclusion

/-- The patterns for folders of dependencies and for generated files. -/
def defaultPatterns : List String :=
  [".git/", "node_modules/", "dist/", "build/", "coverage/", "*.min.js", "*.d.ts"]

/-- The rule for a pattern. -/
def rule (pattern : String) : Except PatternError (Option IgnoreRule) :=
  IgnoreRule.ofLine false ('!' :: pattern.toList)

/-- The rules for some patterns.  A pattern that is no glob is mentioned and left out.  All rules
together always make a matcher here; a limit on their size, which only patterns of many megabytes
would reach, is not modelled. -/
def ofPatterns (place : Path) (patterns : List String) : Logged Exclusion where
  value := ⟨place, patterns.filterMap fun p => ((rule p).toOption.bind id)⟩
  log := patterns.filterMap fun p =>
    match rule p with
    | .error e => some
      ⟨.warn, .discovery, "Failed to add exclude pattern '" ++ p ++ "': " ++ e.text⟩
    | .ok _ => none

/-- The patterns that apply: those of the settings, and the default ones unless they are switched
off. -/
def patterns (settings : Option FoundSettings) (noDefault : Bool) : List String :=
  let own := (settings.bind (·.settings.exclude)).getD []
  let switchedOff := noDefault || settings.any (fun s => s.settings.defaultExclude == some false)
  own ++ (if switchedOff then [] else defaultPatterns)

/-- The rules that apply.  They are placed in the directory of the settings. -/
def ofSettings (settings : Option FoundSettings) (noDefault : Bool) : Logged Exclusion :=
  ofPatterns ((settings.map (·.directory)).getD ⟨"."⟩) (patterns settings noDefault)

/-- Whether some pattern speaks of an entry. -/
def excludes (x : Exclusion) (p : Path) (isDirectory : Bool) : Bool :=
  let bytes := (String.ofList (IgnoreRules.inside x.place p)).toUTF8.toList
  x.rules.any (·.applies isDirectory bytes)

end Exclusion

/-! ### Walking -/

/-- What a walk comes across. -/
inductive Visit where
  | entry (path : Path) (given isDirectory : Bool)
  | failure (message : String)
deriving DecidableEq, Repr

namespace Visit

/-- Whether the last name of a path starts with a dot. -/
def isHidden (name : String) : Bool :=
  name.toList.head? == some '.'

/-- Whether an entry of a directory is left out. -/
def skips (x : Exclusion) (scope : IgnoreScope) (p : Path) (name : String)
    (isDirectory : Bool) : Bool :=
  x.excludes p isDirectory ||
    match scope.verdict? p isDirectory with
    | some .ignore => true
    | some .keep => false
    | none => isHidden name

mutual

/-- The visits to an entry and to all below it. -/
def below (env : Environment) (x : Exclusion) (scope : IgnoreScope) (p : Path) (given : Bool) :
    Entry → List Visit
  | .directory es => entry p given true :: belowAll env x (scope.enter env p) p es
  | .file _ => [entry p given false]
  | .link _ => [entry p given false]

/-- The visits to some entries of a directory and to all below them. -/
def belowAll (env : Environment) (x : Exclusion) (scope : IgnoreScope) (directory : Path) :
    List (String × Entry) → List Visit
  | [] => []
  | (name, e) :: es =>
    let p := directory.join ⟨name⟩
    (if skips x scope p name e.isDirectory then [] else below env x scope p false e) ++
      belowAll env x scope directory es

end

/-- The visits of a walk that starts at a given path. -/
def ofStart (env : Environment) (x : Exclusion) (p : Path) : List Visit :=
  match env.find p with
  | .error e => [failure (p.text ++ ": " ++ e.text)]
  | .ok (.directory es) =>
    let (scope, errors) := IgnoreScope.atStart env p
    (if errors.isEmpty then [] else [failure ("\n".intercalate errors)]) ++
      below env x scope p true (.directory es)
  | .ok _ => [entry p true false]

/-- The file or the error that a visit gives, if it gives one. -/
def result? : Visit → Option (Except String Path)
  | entry p given isDirectory =>
    if !isDirectory && (given || p.isSource) then some (.ok p) else none
  | failure message => some (.error message)

/-- What is said of a visit. -/
def remark? : Visit → Option String
  | entry p given isDirectory =>
    if !isDirectory && given then some ("Included file due to explicit provision " ++ p.text)
    else if !isDirectory && p.isSource then some ("Included JS file " ++ p.text)
    else some ("Excluded file due to fallthrough " ++ p.text)
  | failure _ => none

end Visit

/-! ### Collecting

A search may be done by several workers.  Each of them keeps what its own visits give, and hands it
over to the others at its end.
-/

/-- What the workers share once one of them has handed over its own. -/
def handOver (shared own : List (Except String Path)) : List (Except String Path) :=
  if shared.isEmpty then own else shared ++ own

/-- What is shared in the end, given the visits of each worker.  The workers stand in the order in
which they hand over. -/
def gather (workers : List (List Visit)) : List (Except String Path) :=
  (workers.map (·.filterMap Visit.result?)).foldl handOver []

/-- The files for some paths, and what went wrong on the way.  One worker makes all visits. -/
def discoverFiles (env : Environment) (settings : Option FoundSettings) (noDefault : Bool)
    (paths : List Path) : Logged (List (Except String Path)) :=
  if paths.isEmpty then pure []
  else do
    let x ← Exclusion.ofSettings settings noDefault
    let visits := paths.flatMap (fun p => Visit.ofStart env x (env.normalize p))
    ⟨gather [visits],
      (visits.filterMap Visit.remark?).map (fun m => ⟨.trace, .discovery, m⟩)⟩

end LoopLint
