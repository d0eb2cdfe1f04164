import LoopLint.Environment.Basic
import LoopLint.Ignore.Rule

/-!
# Ignore files

An ignore file holds a rule on each line.  Lines end with a line feed, perhaps behind a carriage
return.  A line without a good glob is reported and left out; a line that is not text is reported
and ends the file.  Files that are missing or cannot be read count as empty, and nothing is said
about them.
-/

namespace LoopLint

/-- What is wrong with a line of an ignore file. -/
inductive LineError where
  | pattern (e : PatternError)
  | unreadable (e : FileError)
deriving DecidableEq, Repr

/-- What is said of such a line. -/
def LineError.text : LineError → String
  | pattern e => e.text
  | unreadable e => e.text

/-- What an ignore file says: its rules, and its bad lines with their numbers. -/
structure IgnoreFile where
  rules : List IgnoreRule
  errors : List (Nat × LineError)

namespace IgnoreFile

/-- The lines of a file.  A line end that comes last starts no further line. -/
def lines : List UInt8 → List (List UInt8)
  | [] => []
  | 13 :: 10 :: bs => [] :: lines bs
  | 10 :: bs => [] :: lines bs
  | b :: bs =>
    match lines bs with
    | [] => [[b]]
    | line :: rest => (b :: line) :: rest

/-- The mark that may stand at the start of a file. -/
def byteOrderMark : Char := '\ufeff'

/-- The rules and errors on some lines, the first of which has the given number. -/
def ofLines (number : Nat) : List (List UInt8) → IgnoreFile
  | [] => ⟨[], []⟩
  | line :: rest =>
    match String.fromUTF8? ⟨line.toArray⟩ with
    | none => ⟨[], [(number, .unreadable .notText)]⟩
    | some text =>
      let chars := if number = 1 then text.toList.dropWhile (· = byteOrderMark) else text.toList
      let file := ofLines (number + 1) rest
      match IgnoreRule.ofLine true chars with
      | .error e => { file with errors := (number, .pattern e) :: file.errors }
      | .ok none => file
      | .ok (some r) => { file with rules := r :: file.rules }

/-- What the file at a path says. -/
def read (env : Environment) (p : Path) : IgnoreFile :=
  match env.readBytes p with
  | .error _ => ⟨[], []⟩
  | .ok bytes => ofLines 1 (lines bytes.toList)

/-- What is said of the bad lines.  A line that is not text goes unmentioned if it is the only one.
-/
def report (f : IgnoreFile) (p : Path) : List String :=
  match f.errors with
  | [(_, .unreadable _)] => []
  | errors =>
    errors.map fun (number, e) => p.text ++ ": line " ++ toString number ++ ": " ++ e.text

end IgnoreFile
end LoopLint
