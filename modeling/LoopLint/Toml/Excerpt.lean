import LoopLint.Text.Offset
import LoopLint.Text.Split

/-!
# Excerpts of a document

A message about a place in a document comes with the line that it is about, and with marks below the
place.
-/

namespace LoopLint.Toml

/-- A text several times. -/
def times (n : Nat) (c : Char) : String :=
  String.ofList (List.replicate n c)

/-- The message about a range, with the line where the range starts.  The marks cover the range up
to the end of that line; there is at least one. -/
def excerpt (source : String) (range : TextRange) (message : String) : String :=
  let before := Text.takeBytes range.start source.toList
  let row := (Text.endPoint before).row
  let column := (Text.lineBefore source.toList range.start).length
  let content := ((Text.splitOn '\n' source.toList)[row]?).getD []
  let marks := min (range.stop - range.start) (Text.byteLength content - column)
  let number := toString (row + 1)
  let gutter := times (number.length + 1) ' '
  "TOML parse error at line " ++ number ++ ", column " ++ toString (column + 1) ++ "\n" ++
    gutter ++ "|\n" ++
    number ++ " | " ++ String.ofList content ++ "\n" ++
    gutter ++ "|" ++ times (column + 1) ' ' ++ times (max 1 marks) '^' ++ "\n" ++
    message ++ "\n"

end LoopLint.Toml
