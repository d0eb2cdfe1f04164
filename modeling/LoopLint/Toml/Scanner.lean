import LoopLint.Text.Offset

/-!
# Scanning

A scanner reads a piece of a text from its start and gives what it means and where it ended, or
nothing if the text does not start with such a piece.  Trying one scanner after another starts each
of them at the same place.  Places are kept as byte offsets, so that a piece can say where it stood.
-/

namespace LoopLint.Toml

/-- What is left of a text, and how many bytes came before it. -/
structure Cursor where
  rest : List Char
  offset : Nat

/-- Reads a piece of a text. -/
abbrev Scanner := StateT Cursor Option

namespace Scanner

variable {α β : Type}

/-- One character of a class. -/
def charWhere (p : Char → Bool) : Scanner Char := fun c =>
  match c.rest with
  | d :: ds => if p d then some (d, ⟨ds, c.offset + d.utf8Size⟩) else none
  | [] => none

/-- One character. -/
def char (d : Char) : Scanner Char :=
  charWhere (· == d)

/-- Some characters. -/
def text : List Char → Scanner Unit
  | [] => pure ()
  | d :: ds => do
    let _ ← char d
    text ds

/-- The next character, which is not used up. -/
def peek : Scanner (Option Char) := fun c =>
  some (c.rest.head?, c)

/-- Nothing is left. -/
def atEnd : Scanner Unit := fun c =>
  if c.rest.isEmpty then some ((), c) else none

/-- A piece, if there is one. -/
def maybe (p : Scanner α) : Scanner (Option α) := fun c =>
  match p c with
  | some (a, c') => some (some a, c')
  | none => some (none, c)

/-- As many pieces as there are.  A piece that uses up nothing is the last one. -/
def pieces (p : Scanner α) (c : Cursor) : List α × Cursor :=
  match p c with
  | none => ([], c)
  | some (a, c') =>
    if c'.rest.length < c.rest.length then
      let (as, last) := pieces p c'
      (a :: as, last)
    else ([a], c')
termination_by c.rest.length

/-- As many pieces as there are, perhaps none. -/
def many (p : Scanner α) : Scanner (List α) := fun c =>
  some (pieces p c)

/-- As many pieces as there are, at least one. -/
def many1 (p : Scanner α) : Scanner (List α) := do
  let a ← p
  let as ← many p
  pure (a :: as)

/-- Pieces with separators between them, at least one piece. -/
def sepBy1 (p : Scanner α) (sep : Scanner β) : Scanner (List α) := do
  let a ← p
  let as ← many (sep *> p)
  pure (a :: as)

/-- Exactly `n` pieces. -/
def exactly (p : Scanner α) : Nat → Scanner (List α)
  | 0 => pure []
  | n + 1 => do
    let a ← p
    let as ← exactly p n
    pure (a :: as)

/-- A piece and the range that it covers. -/
def located (p : Scanner α) : Scanner (α × TextRange) := fun c =>
  match p c with
  | some (a, c') => some ((a, ⟨c.offset, c'.offset⟩), c')
  | none => none

/-- A piece whose meaning is acceptable. -/
def accept (o : Option α) : Scanner α := fun c =>
  o.map (fun a => (a, c))

/-- A condition. -/
def require (b : Bool) : Scanner Unit :=
  accept (if b then some () else none)

end Scanner
end LoopLint.Toml
