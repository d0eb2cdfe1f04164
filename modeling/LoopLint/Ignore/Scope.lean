import LoopLint.Ignore.Global
import LoopLint.Ignore.Repository

/-!
# The ignore rules in force

In a directory that is being walked the rules of all directories from the nearest up to the root of
the file tree are in force, and the user's own ones.  A directory has two kinds of rules: those of
its ignore file, and those kept inside the repository.  The first kind is asked in all directories
before the second, each time from the nearest directory on, and the user's own rules come last.

The directories above the start of a walk are those above the place that its links lead to, so that
the path of an entry is first moved there.
-/

namespace LoopLint

/-- The rules of a directory. -/
structure DirectoryRules where
  ignoreFile : IgnoreRules
  repositoryFile : IgnoreRules

namespace DirectoryRules

/-- The rules kept inside the repository of a directory, and what is wrong with its files. -/
def ofRepository (env : Environment) (directory : Path) : List IgnoreRule × List String :=
  match Repository.directory? env directory with
  | .error complaint => ([], [complaint])
  | .ok none => ([], [])
  | .ok (some shared) =>
    let p := shared.join ⟨"info/exclude"⟩
    let file := IgnoreFile.read env p
    (file.rules, file.report p)

/-- The rules of the directory at a path, and what is wrong with its files. -/
def read (env : Environment) (directory : Path) : DirectoryRules × List String :=
  let p := directory.join ⟨".gitignore"⟩
  let ignoreFile := IgnoreFile.read env p
  let kept := ofRepository env directory
  (⟨⟨directory, ignoreFile.rules⟩, ⟨directory, kept.1⟩⟩, ignoreFile.report p ++ kept.2)

end DirectoryRules

/-- The rules in force in a directory of a walk. -/
structure IgnoreScope where
  /-- The directory where the walk started, as it was given. -/
  start : Path
  /-- The place of that directory, without links. -/
  base : Path
  /-- The rules of the directories of the walk, the nearest first. -/
  walked : List DirectoryRules
  /-- The rules of the directories above the start, the nearest first. -/
  above : List DirectoryRules
  /-- The user's own rules. -/
  user : IgnoreRules

namespace IgnoreScope

/-- The directories above a place, the one nearest to the root first. -/
def directoriesAbove (names : List String) : List Path :=
  ((Path.upward names.reverse).drop 1).reverse.map (fun ns => Path.ofNames ns.reverse)

/-- The rules in force before the start itself is entered, and what is wrong with the files above
it. -/
def atStart (env : Environment) (start : Path) : IgnoreScope × List String :=
  let user := GitConfig.globalRules env
  match env.locate start with
  | .error _ => (⟨start, start, [], [], user⟩, [])
  | .ok names =>
    let found := (directoriesAbove names).map (DirectoryRules.read env)
    (⟨start, Path.ofNames names, [], (found.map (·.1)).reverse, user⟩, found.flatMap (·.2))

/-- The rules in force inside a directory of the walk. -/
def enter (env : Environment) (s : IgnoreScope) (directory : Path) : IgnoreScope :=
  { s with walked := (DirectoryRules.read env directory).1 :: s.walked }

/-- The path of an entry, seen from the place that the links of the start lead to. -/
def realPath (s : IgnoreScope) (p : Path) : Path :=
  let chars := p.text.toList
  let rest := (Text.dropPrefix? chars s.start.text.toList).getD chars
  s.base.join ⟨String.ofList ((Text.dropPrefix? rest ['/']).getD rest)⟩

/-- What the rules in force say of an entry. -/
def verdict? (s : IgnoreScope) (p : Path) (isDirectory : Bool) : Option Verdict :=
  let real := s.realPath p
  let ask (rules : DirectoryRules → IgnoreRules) : Option Verdict :=
    (s.walked.findSome? (fun d => (rules d).verdict? p isDirectory)).or
      (s.above.findSome? (fun d => (rules d).verdict? real isDirectory))
  (ask (·.ignoreFile)).or ((ask (·.repositoryFile)).or (s.user.verdict? p isDirectory))

end IgnoreScope
end LoopLint
