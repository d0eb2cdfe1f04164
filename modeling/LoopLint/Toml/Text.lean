import LoopLint.Toml.Scanner
import LoopLint.Toml.Value

/-!
# Blanks, comments, strings and keys of TOML
-/

namespace LoopLint.Toml

open Scanner

/-! ### Between the values -/

/-- The characters that may stand on a line. -/
def isPlain (c : Char) : Bool :=
  c == '\t' || (0x20 ≤ c.toNat && c.toNat != 0x7F)

/-- The blanks between words of one line. -/
def isGap (c : Char) : Bool :=
  c == ' ' || c == '\t'

/-- Blanks on one line, perhaps none. -/
def gap : Scanner Unit := do
  let _ ← many (charWhere isGap)

/-- A line end. -/
def newline : Scanner Unit := do
  let _ ← maybe (char '\r')
  let _ ← char '\n'

/-- A comment up to the line end. -/
def comment : Scanner Unit := do
  let _ ← char '#'
  let _ ← many (charWhere isPlain)

/-- Blanks, comments and line ends, perhaps none. -/
def spacing : Scanner Unit := do
  let _ ← many ((do let _ ← charWhere isGap) <|> newline <|> comment)

/-- What may stand behind the words of a line, up to its end. -/
def lineEnd : Scanner Unit := do
  gap
  let _ ← maybe comment
  newline <|> atEnd

/-! ### Strings -/

/-- The value of a hexadecimal digit. -/
def hexDigit? (c : Char) : Option Nat :=
  if '0' ≤ c ∧ c ≤ '9' then some (c.toNat - 48)
  else if 'a' ≤ c ∧ c ≤ 'f' then some (c.toNat - 87)
  else if 'A' ≤ c ∧ c ≤ 'F' then some (c.toNat - 55)
  else none

/-- A character by the `n` hexadecimal digits of its number. -/
def numbered (n : Nat) : Scanner Char := do
  let ds ← exactly (charWhere (fun c => (hexDigit? c).isSome)) n
  let code := (ds.filterMap hexDigit?).foldl (fun acc d => 16 * acc + d) 0
  accept (if code.isValidChar then some (Char.ofNat code) else none)

/-- An escaped character. -/
def escape : Scanner Char := do
  let _ ← char '\\'
  let c ← charWhere (fun _ => true)
  match c with
  | '"' => pure '"'
  | '\\' => pure '\\'
  | 'b' => pure '\x08'
  | 'f' => pure '\x0c'
  | 'n' => pure '\n'
  | 'r' => pure '\r'
  | 't' => pure '\t'
  | 'u' => numbered 4
  | 'U' => numbered 8
  | _ => failure

/-- A string between double quotes, on one line. -/
def basicString : Scanner (List Char) := do
  let _ ← char '"'
  let cs ← many (charWhere (fun c => isPlain c && c != '"' && c != '\\') <|> escape)
  let _ ← char '"'
  pure cs

/-- A string between single quotes, on one line and without escapes. -/
def literalString : Scanner (List Char) := do
  let _ ← char '\''
  let cs ← many (charWhere (fun c => isPlain c && c != '\''))
  let _ ← char '\''
  pure cs

/-- One or two quotes that do not belong to the end of a long string. -/
def innerQuotes (q : Char) : Scanner (List Char) := do
  let qs ← (do text [q, q]; pure [q, q]) <|> (do text [q]; pure [q])
  match ← peek with
  | some c => if c = q then failure else pure qs
  | none => failure

/-- The end of a long string: three quotes, and up to two before them that belong to the string. -/
def closingQuotes (q : Char) : Scanner (List Char) :=
  (do text [q, q, q, q, q]; pure [q, q]) <|> (do text [q, q, q, q]; pure [q]) <|>
    (do text [q, q, q]; pure [])

/-- A backslash at the end of a line, which takes the following blanks and line ends with it. -/
def continuation : Scanner (List Char) := do
  let _ ← char '\\'
  gap
  newline
  let _ ← many ((do let _ ← charWhere isGap) <|> newline)
  pure []

/-- A string between three quotes, with the given contents.  A line end right behind the opening
quotes does not count. -/
def longString (q : Char) (content : Scanner (List Char)) : Scanner (List Char) := do
  text [q, q, q]
  let _ ← maybe newline
  let parts ← many (content <|> (do newline; pure ['\n']) <|> innerQuotes q)
  let last ← closingQuotes q
  pure (parts.flatten ++ last)

/-- A string over several lines between double quotes. -/
def longBasicString : Scanner (List Char) :=
  longString '"' ((do
    let c ← charWhere (fun c => isPlain c && c != '"' && c != '\\')
    pure [c]) <|> continuation <|> (do
    let c ← escape
    pure [c]))

/-- A string over several lines between single quotes. -/
def longLiteralString : Scanner (List Char) :=
  longString '\'' (do
    let c ← charWhere (fun c => isPlain c && c != '\'')
    pure [c])

/-- A string of any form. -/
def anyString : Scanner String := do
  let cs ← longBasicString <|> basicString <|> longLiteralString <|> literalString
  pure (String.ofList cs)

/-! ### Keys -/

/-- The characters of a key without quotes. -/
def isBare (c : Char) : Bool :=
  c.isAlphanum || c == '_' || c == '-'

/-- A key without dots. -/
def simpleKey : Scanner Key := do
  let (cs, range) ← located (basicString <|> literalString <|> many1 (charWhere isBare))
  pure ⟨String.ofList cs, range⟩

/-- The number of levels that keys and values have to stay below. -/
def levelLimit : Nat := 80

/-- A key with dots between its parts: the parts before the last one, and the last one. -/
def dottedKey : Scanner (List Key × Key) := do
  let parts ← sepBy1 (gap *> simpleKey <* gap) (char '.')
  require (parts.length < levelLimit)
  match parts.getLast? with
  | some last => pure (parts.dropLast, last)
  | none => failure

end LoopLint.Toml
