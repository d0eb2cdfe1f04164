import LoopLint.Glob.Parse
import LoopLint.Path.Basic
import LoopLint.Text.Blank

/-!
# Ignore rules

A rule is a line of an ignore file: a glob, perhaps behind a `!` that takes files back in, perhaps
with a slash at its end that restricts it to directories.  A glob with a slash inside it is matched
against the path from the place of the rules; any other one against the last name of the path as
well.  Of the rules that match, the last one decides.
-/

namespace LoopLint

/-- What rules say about an entry of a directory. -/
inductive Verdict where
  | ignore
  | keep
deriving DecidableEq, Repr

/-- A line of an ignore file that holds no glob, and why. -/
structure PatternError where
  line : String
  reason : GlobError
deriving DecidableEq, Repr

/-- What is said of such a line. -/
def PatternError.text (e : PatternError) : String :=
  "error parsing glob '" ++ e.line ++ "': " ++ e.reason.text

/-- A line of an ignore file. -/
structure IgnoreRule where
  glob : Glob
  verdict : Verdict
  directoriesOnly : Bool
deriving Repr

namespace IgnoreRule

/-- Without the blanks at the end, unless the last one is escaped. -/
def trimLine (line : List Char) : List Char :=
  match line.reverse with
  | ' ' :: '\\' :: _ => line
  | _ => Text.dropTrailingBlanks line

/-- What a line says before its glob: the verdict, whether the glob is bound to the place of the
rules, and the rest of the line. -/
def splitMarks (line : List Char) : Verdict × Bool × List Char :=
  let unbind (v : Verdict) (cs : List Char) :=
    match cs with
    | '/' :: cs => (v, true, cs)
    | cs => (v, false, cs)
  match line with
  | '\\' :: '!' :: cs => (.ignore, false, '!' :: cs)
  | '\\' :: '#' :: cs => (.ignore, false, '#' :: cs)
  | '!' :: cs => unbind .keep cs
  | cs => unbind .ignore cs

/-- The line without a slash at its end, and whether there was one.  The backslash of an escaped
slash goes with it. -/
def splitSlash (line : List Char) : Bool × List Char :=
  match line.reverse with
  | '/' :: '\\' :: cs => (true, cs.reverse)
  | '/' :: cs => (true, cs.reverse)
  | _ => (false, line)

/-- Whether a glob starts with any directories. -/
def startsAnywhere (glob : List Char) : Bool :=
  (Text.dropPrefix? glob ['*', '*', '/']).isSome || glob == ['*', '*']

/-- The glob for a whole path: one that is not bound and has no slash may start anywhere, and one
that ends in any directories needs something in them. -/
def completeGlob (bound : Bool) (glob : List Char) : List Char :=
  let anywhere :=
    if bound || glob.contains '/' || startsAnywhere glob then glob else ['*', '*', '/'] ++ glob
  if (Text.dropSuffix? anywhere ['/', '*', '*']).isSome then anywhere ++ ['/', '*'] else anywhere

/-- The rule on a line, if the line holds one.  With `lenient` set, an opening bracket that is never
closed stands for itself. -/
def ofLine (lenient : Bool) (text : List Char) : Except PatternError (Option IgnoreRule) :=
  if text.head? = some '#' then .ok none
  else
    let line := trimLine text
    if line.isEmpty then .ok none
    else
      let (verdict, bound, body) := splitMarks line
      let (directoriesOnly, glob) := splitSlash body
      match Glob.parse lenient (completeGlob bound glob) with
      | .error e => .error ⟨String.ofList line, e⟩
      | .ok glob => .ok (some { glob, verdict, directoriesOnly })

/-- Whether the rule speaks of an entry with the given path from the place of the rules. -/
def applies (r : IgnoreRule) (isDirectory : Bool) (path : List UInt8) : Bool :=
  (isDirectory || !r.directoriesOnly) && r.glob.matches path

end IgnoreRule

/-- Rules and the directory that they are placed in. -/
structure IgnoreRules where
  place : Path
  rules : List IgnoreRule

namespace IgnoreRules

/-- A text without a `./` at its start. -/
def dropHere (p : Path) : List Char :=
  (Text.dropPrefix? p.text.toList ['.', '/']).getD p.text.toList

/-- The path as the rules see it.  The text of their place is cut off, and a slash behind it. -/
def inside (place p : Path) : List Char :=
  let base := dropHere place
  if base = ['.'] then p.text.toList
  else match Text.dropPrefix? p.text.toList base with
    | none => p.text.toList
    | some ('/' :: rest) => rest
    | some rest => rest

/-- What the rules say of an entry: the word of the last rule that applies. -/
def verdict? (rs : IgnoreRules) (p : Path) (isDirectory : Bool) : Option Verdict :=
  if rs.rules.isEmpty then none
  else
    let bytes := (String.ofList (inside rs.place p)).toUTF8.toList
    (rs.rules.reverse.find? (·.applies isDirectory bytes)).map (·.verdict)

end IgnoreRules
end LoopLint
