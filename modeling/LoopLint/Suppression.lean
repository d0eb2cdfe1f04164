import LoopLint.Syntax.Tree
import LoopLint.Text.Blank
import LoopLint.Text.Split

/-!
# Suppression comments

A comment whose first word is `forof-ignore` silences the findings that start on the line where the
comment ends.  If nothing but blanks stands before the comment on its line, it silences those on the
next line as well.  A comment whose first word is `forof-ignore-file` silences the whole file.
-/

namespace LoopLint

/-- What a comment asks the linter to do. -/
inductive Directive where
  | ignore
  | ignoreFile
deriving DecidableEq, Repr

namespace Directive

/-- What a comment says, without the marks around it. -/
def content? (comment : List Char) : Option (List Char) :=
  match Text.dropPrefix? comment ['/', '/'] with
  | some content => some content
  | none =>
    (Text.dropPrefix? comment ['/', '*']).bind (fun rest => Text.dropSuffix? rest ['*', '/'])

/-- The directive with the given name. -/
def ofWord? (word : String) : Option Directive :=
  if word = "forof-ignore" then some ignore
  else if word = "forof-ignore-file" then some ignoreFile
  else none

/-- The directive in a comment. -/
def ofComment? (comment : String) : Option Directive :=
  (content? comment.toList).bind (fun content => ofWord? (String.ofList (Text.firstWord content)))

end Directive

/-- What the comments of a file silence: everything, or what starts on one of some rows. -/
structure Suppression where
  wholeFile : Bool
  rows : List Nat
deriving DecidableEq, Repr

namespace Suppression

/-- Whether only blanks stand before the offset on its line. -/
def startsLine (source : List Char) (offset : Nat) : Bool :=
  (Text.lineBefore source offset).all Text.isBlank

/-- The rows that a comment silences. -/
def rowsOf (source : List Char) (comment : Label) : List Nat :=
  if Directive.ofComment? comment.text = some .ignore then
    if startsLine source comment.range.start then [comment.stop.row, comment.stop.row + 1]
    else [comment.stop.row]
  else []

/-- What the comments of a tree silence. -/
def ofTree (source : String) (t : Tree) : Suppression where
  wholeFile := t.comments.any (fun c => Directive.ofComment? c.text == some .ignoreFile)
  rows := t.comments.flatMap (rowsOf source.toList)

/-- Whether what starts on the row is silenced. -/
def covers (s : Suppression) (row : Nat) : Bool :=
  s.rows.contains row

end Suppression
end LoopLint
