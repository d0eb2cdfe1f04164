import LoopLint.Diagnostic.Basic
import LoopLint.Report.Paint
import LoopLint.Text.Blank
import LoopLint.Text.Split
import LoopLint.Text.Width

/-!
# Source snippets

A snippet shows the lines that a range of a source text covers, with marks at the range.  A range
within a line is underlined.  A range over several lines gets a line to the left of the text, which
starts above the first line if that line has nothing but blanks before the range, and otherwise
below it; more than three lines between the first and the last are shortened to two.

Marks are placed by the widths of the characters before them, in which control characters count
nothing, although a tab is shown as four blanks.
-/

namespace LoopLint.Snippet

/-! ### The lines of a range -/

/-- A line of the source text, with its number and its offsets.  The size of the line end comes
separately. -/
structure SourceLine where
  number : Nat
  text : List Char
  start : Nat
  stop : Nat
  endSize : Nat

/-- A text without a carriage return at its end, and the size of the line end if a line feed
follows. -/
def splitReturn (cs : List Char) : List Char × Nat :=
  match cs.reverse with
  | '\r' :: rest => (rest.reverse, 2)
  | _ => (cs, 1)

/-- The lines made of some texts that line feeds divide.  The last text is no line if it is empty.
-/
def linesOf (number start : Nat) : List (List Char) → List SourceLine
  | [] => []
  | [last] =>
    if last.isEmpty then []
    else [⟨number, last, start, start + Text.byteLength last, 0⟩]
  | part :: parts =>
    let (text, size) := splitReturn part
    let stop := start + Text.byteLength text
    ⟨number, text, start, stop, size⟩ :: linesOf (number + 1) (stop + size) parts

/-- The lines from the one where a range starts to the one where it ends.  The offsets are those in
the source. -/
def coveredLines (source : List Char) (r : TextRange) : List SourceLine :=
  let before := Text.takeBytes r.start source
  let lineStart := r.start - Text.byteLength (Text.lineBefore source r.start)
  let inside := Text.slice source ⟨lineStart, r.stop⟩
  let behind := (Text.dropBytes r.stop source).takeWhile (· ≠ '\n')
  linesOf ((Text.endPoint before).row + 1) lineStart (Text.splitOn '\n' (inside ++ behind))

/-! ### The marks of a line -/

/-- What is marked on a line, in columns. -/
inductive Mark where
  | nothing
  /-- The range lies on the line. -/
  | alone (first last : Nat)
  /-- The range starts on the line and goes on. -/
  | opens (column : Nat)
  /-- The range starts before the line and ends behind it. -/
  | passes
  /-- The range starts before the line and ends on it. -/
  | closes (column : Nat)
deriving DecidableEq, Repr

/-- Whether the mark points at the text of the line. -/
def Mark.points : Mark → Bool
  | alone _ _ => true
  | opens _ => true
  | closes _ => true
  | _ => false

/-- Whether the mark belongs to a range over several lines. -/
def Mark.spans : Mark → Bool
  | opens _ => true
  | closes _ => true
  | _ => false

/-- The columns before an offset in a line. -/
def SourceLine.column (l : SourceLine) (offset : Nat) : Nat :=
  Text.width (Text.takeBytes (min (offset - l.start) (l.stop - l.start)) l.text)

/-- The mark of a range on a line.  A line end counts as a part of its line, and so does the end of
the text. -/
def SourceLine.mark (l : SourceLine) (r : TextRange) : Mark :=
  let reach := l.stop + max l.endSize 1
  if l.stop + l.endSize < r.start then .nothing
  else if l.start ≤ r.start ∧ r.stop ≤ reach then
    let first := l.column r.start
    let last := l.column r.stop
    .alone first (if first = last then last + 1 else last)
  else if l.start ≤ r.start ∧ r.start ≤ l.stop + (l.endSize - 1) then .opens (l.column r.start)
  else if r.start < l.start ∧ reach < r.stop then .passes
  else if r.start < l.start ∧ l.start ≤ r.stop then
    let column := l.column r.stop - 1
    .closes (if l.stop < r.stop then column + 1 else column)
  else .nothing

/-- The lines with their marks; nothing is marked behind the line where the range ends. -/
def markLines (r : TextRange) : List SourceLine → List (SourceLine × Mark)
  | [] => []
  | l :: ls =>
    match l.mark r with
    | .alone first last => (l, .alone first last) :: ls.map (·, .nothing)
    | .closes column => (l, .closes column) :: ls.map (·, .nothing)
    | m => (l, m) :: markLines r ls

/-- What is shown: a line, or a sign that lines were left out. -/
inductive Shown where
  | line (l : SourceLine) (m : Mark)
  | gap

/-- The number of lines that are not worth leaving out. -/
def gapLimit : Nat := 3

/-- The lines between two marked ones. -/
def between (ls : List (SourceLine × Mark)) : List Shown :=
  let all := ls.map fun (l, m) => Shown.line l m
  if ls.length ≤ gapLimit then all
  else all.take 1 ++ [.gap] ++ all.drop (all.length - 1)

/-- The lines from the first marked one to the last, given the lines since the last marked one. -/
def fold (started : Bool) (since : List (SourceLine × Mark)) :
    List (SourceLine × Mark) → List Shown
  | [] => []
  | (l, m) :: ls =>
    if m.points then
      (if started then between since else []) ++ .line l m :: fold true [] ls
    else fold started (since ++ [(l, m)]) ls

/-! ### Rows -/

/-- A row is made of runs of one colour each. -/
abbrev Row := List (Ink × String)

/-- The text of a row. -/
def renderRow (color : Bool) (row : Row) : String :=
  String.join (row.map fun (ink, s) => ink.run color s)

/-- A character several times. -/
def times (n : Nat) (c : Char) : String :=
  String.ofList (List.replicate n c)

/-- A character as it is shown.  Characters that would turn the direction of the text are left out.
-/
def showChar (c : Char) : List Char :=
  if c = '\t' then [' ', ' ', ' ', ' ']
  else if c.toNat = 0x200D ∨ (0x202A ≤ c.toNat ∧ c.toNat ≤ 0x202E) ∨
    (0x2066 ≤ c.toNat ∧ c.toNat ≤ 0x2069) then []
  else [c]

/-- The text of a line as it is shown. -/
def SourceLine.shownText (l : SourceLine) : List Char :=
  l.text.flatMap showChar

/-- Whether a range starts behind nothing but blanks. -/
def SourceLine.startsAt (l : SourceLine) (column : Nat) : Bool :=
  (l.shownText.take column).all Text.isBlank

/-- A row without a number and without text. -/
def barRow (digits : Nat) : Row :=
  [(.plain, times (digits + 1) ' '), (.gutter, "|")]

/-- The label behind a mark. -/
def labelRuns (label : String) : Row :=
  if label = "" then [] else [(.plain, " "), (.mark, label)]

/-- The row of a source line. -/
def codeRow (digits : Nat) (spanning : Bool) (l : SourceLine) (m : Mark) : Row :=
  let number := toString l.number
  let code := String.ofList l.shownText
  let behind (blanks : String) : Row := if code = "" then [] else [(.plain, blanks ++ code)]
  (.gutter, times (digits - number.length) ' ' ++ number ++ " |") ::
    (if !spanning then behind " "
      else match m with
        | .passes | .closes _ => [(.plain, " "), (.mark, "|")] ++ behind " "
        | .opens column =>
          if l.startsAt column then [(.plain, " "), (.mark, "/")] ++ behind " " else behind "   "
        | _ => behind "   ")

/-- The row below a source line. -/
def markRow? (digits : Nat) (label : String) (l : SourceLine) (m : Mark) : Option Row :=
  match m with
  | .alone first last =>
    some (barRow digits ++ [(.plain, times (first + 1) ' '), (.mark, times (last - first) '-')] ++
      labelRuns label)
  | .opens column =>
    if l.startsAt column then none
    else some (barRow digits ++ [(.plain, "  "), (.mark, times (column + 1) '_' ++ "-")])
  | .closes column =>
    some (barRow digits ++ [(.plain, " "), (.mark, "|" ++ times (column + 1) '_' ++ "-")] ++
      labelRuns label)
  | _ => none

/-- The rows of what is shown. -/
def shownRows (digits : Nat) (spanning : Bool) (label : String) : Shown → List Row
  | .line l m => codeRow digits spanning l m :: (markRow? digits label l m).toList
  | .gap => [[(.gutter, "..."), (.plain, times digits ' '), (.mark, "|")]]

/-- The lines of a text.  A line feed that comes last starts no further line. -/
def textLines (s : String) : List String :=
  let parts := Text.splitOn '\n' s.toList
  let ended := match parts.reverse with
    | [] :: rest => rest.reverse
    | _ => parts
  ended.map fun cs =>
    match cs.reverse with
    | '\r' :: rest => String.ofList rest.reverse
    | _ => String.ofList cs

/-- The rows of a suggestion; its lines stand one below the other. -/
def helpRows (digits : Nat) (suggestion : String) : List Row :=
  (textLines suggestion).zipIdx.map fun (s, i) =>
    if i = 0 then
      [(.plain, times (digits + 1) ' '), (.gutter, "= "), (.helpWord, "help")] ++
        (if s = "" then [] else [(.plain, ": " ++ s)])
    else [(.plain, times (digits + 9) ' ' ++ s)]

/-- The title row. -/
def titleRow (title : String) : Row :=
  (.mark, "warning") :: (if title = "" then [] else [(.plain, ": "), (.title, title)])

/-- The row that says where the range starts. -/
def originRow (digits : Nat) (file : String) (row column : Nat) : Row :=
  [(.plain, times digits ' '), (.gutter, "-->"),
    (.plain, " " ++ file ++ ":" ++ toString row ++ ":" ++ toString column)]

/-- The line and the column where a range starts, both counted from one.  Without such a line it is
the first. -/
def startOf (shown : List Shown) (r : TextRange) : Nat × Nat :=
  (shown.findSome? fun
    | .line l _ =>
      if l.start ≤ r.start ∧ r.start < l.stop + max l.endSize 1 then
        some (l.number, (Text.takeBytes (r.start - l.start) l.text).length + 1)
      else none
    | .gap => none).getD (1, 1)

/-- The rows of a message about a range of a source text. -/
def rows (file : String) (source : List Char) (r : TextRange) (m : Message) : List Row :=
  let shown := fold false [] (markLines r (coveredLines source r))
  let numbers := shown.filterMap fun | .line l _ => some l.number | .gap => none
  let digits := match numbers.max? with
    | some n => (toString n).length
    | none => 0
  let spanning := shown.any fun | .line _ m => m.spans | .gap => false
  let (row, column) := startOf shown r
  [titleRow m.name, originRow digits file row column, barRow digits] ++
    shown.flatMap (shownRows digits spanning m.body) ++ [barRow digits] ++
    (m.suggestion.map (helpRows digits)).getD []

/-- The text of a message about a range of a source text. -/
def render (color : Bool) (file source : String) (r : TextRange) (m : Message) : String :=
  "\n".intercalate ((rows file source.toList r m).map (renderRow color))

end LoopLint.Snippet
