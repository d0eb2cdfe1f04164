import LoopLint.Path.Basic
import LoopLint.Text.Offset

/-!
# Diagnostics

A diagnostic says which rule a piece of source text breaks, in which file, and where.  Diagnostics
are ordered by file and then by place; the file is compared as a path.
-/

namespace LoopLint

/-- What a diagnostic has to say. -/
structure Message where
  name : String
  body : String
  suggestion : Option String
deriving DecidableEq, Repr

/-- The body, followed by the suggestion if there is one. -/
def Message.full (m : Message) : String :=
  match m.suggestion with
  | some s => m.body ++ " " ++ s
  | none => m.body

/-- A place in a file: the line, counted from one, and the byte column in it, counted from zero. -/
structure Location where
  row : Nat
  column : Nat
deriving DecidableEq, Repr

/-- The place of a point of a text. -/
def Location.ofPoint (p : Point) : Location :=
  ⟨p.row + 1, p.column⟩

/-- A finding in a file. -/
structure Diagnostic where
  message : Message
  filename : Path
  range : TextRange
  location : Option Location
deriving DecidableEq, Repr

/-- Ranges are ordered by their start, then by their end. -/
protected def TextRange.compare (a b : TextRange) : Ordering :=
  (compare a.start b.start).then (compare a.stop b.stop)

namespace Diagnostic

/-- Diagnostics are ordered by file, then by range. -/
protected def compare (a b : Diagnostic) : Ordering :=
  (a.filename.compare b.filename).then (a.range.compare b.range)

/-- Two diagnostics are the same if they agree in everything, the file being compared as a path. -/
def same (a b : Diagnostic) : Bool :=
  a.message == b.message && a.filename.same b.filename && a.range == b.range &&
    a.location == b.location

/-- The diagnostics in order; those that compare equal stay in the order in which they came. -/
def sort (ds : List Diagnostic) : List Diagnostic :=
  ds.mergeSort (fun a b => (a.compare b).isLE)

end Diagnostic
end LoopLint
