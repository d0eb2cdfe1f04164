import LoopLint.Decimal.Binary
import LoopLint.Text.Offset

/-!
# TOML values

A document is a table.  Each value knows where it stands in the text, as far as it stands in one
place, and each key where it was first written.
-/

namespace LoopLint.Toml

/-- A value without parts. -/
inductive Scalar where
  | string (s : String)
  | integer (n : Int)
  | float (x : Decimal.Binary)
  | boolean (b : Bool)
  | date
deriving DecidableEq, Repr

/-- A key and where it was first written. -/
structure Key where
  name : String
  range : TextRange
deriving DecidableEq, Repr

/-- How a table came about, which decides what may be added to it. -/
inductive TableOrigin where
  /-- Written between braces: nothing can be added. -/
  | closed
  /-- Opened by a header of its own: sub-tables can be added. -/
  | header
  /-- Named on the way to another table: it can still get a header of its own. -/
  | implied
  /-- Named in a dotted key: further dotted keys can add to it. -/
  | dotted
deriving DecidableEq, Repr

/-- A value.  The range is missing where a table stands in several places. -/
inductive Value where
  | scalar (s : Scalar) (range : TextRange)
  | array (items : List Value) (range : TextRange)
  | table (origin : TableOrigin) (entries : List (Key × Value)) (range : Option TextRange)
  | tables (items : List (List (Key × Value) × TextRange)) (range : TextRange)
deriving Repr

/-- Where the value stands, if it stands in one place. -/
def Value.range? : Value → Option TextRange
  | scalar _ r => some r
  | array _ r => some r
  | table _ _ r => r
  | tables _ r => some r

/-- The entries of a table in the order of the document. -/
abbrev Entries := List (Key × Value)

/-- What a key stands for. -/
def Entries.lookup? (es : Entries) (name : String) : Option Value :=
  (es.find? (fun e => e.1.name == name)).map (·.2)

/-- The entries with another meaning of a key. -/
def Entries.set (es : Entries) (name : String) (v : Value) : Entries :=
  es.map (fun e => if e.1.name = name then (e.1, v) else e)

/-- The entries without a key. -/
def Entries.erase (es : Entries) (name : String) : Entries :=
  es.filter (fun e => e.1.name != name)

end LoopLint.Toml
