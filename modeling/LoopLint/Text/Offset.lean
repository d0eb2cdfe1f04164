/-!
# Byte offsets

Positions in a source text are counted in bytes of its UTF-8 form.  A text is taken as its list of
characters, each of which is as many bytes long as its encoding; an offset that falls inside a
character counts as the offset behind it.
-/

namespace LoopLint

/-- A half-open range of byte offsets.  Nothing forces the end to come after the start: ranges are
also read from outside, and it is `TextRange.length?` that asks for the order. -/
structure TextRange where
  start : Nat
  stop : Nat
deriving DecidableEq, Repr

namespace TextRange

/-- The number of bytes covered, if the range ends where it starts or later. -/
def length? (r : TextRange) : Option Nat :=
  if r.start ≤ r.stop then some (r.stop - r.start) else none

/-- A range is empty when it ends where it starts. -/
def isEmpty (r : TextRange) : Bool :=
  r.start == r.stop

end TextRange

/-- A line and a byte column in it, both counted from zero. -/
structure Point where
  row : Nat
  column : Nat
deriving DecidableEq, Repr

namespace Text

/-- The number of bytes of a text. -/
def byteLength (cs : List Char) : Nat :=
  cs.foldr (fun c n => c.utf8Size + n) 0

/-- The text behind the first `n` bytes. -/
def dropBytes : Nat → List Char → List Char
  | _, [] => []
  | n, c :: cs => if n = 0 then c :: cs else dropBytes (n - c.utf8Size) cs

/-- The text of the first `n` bytes. -/
def takeBytes : Nat → List Char → List Char
  | _, [] => []
  | n, c :: cs => if n = 0 then [] else c :: takeBytes (n - c.utf8Size) cs

/-- The text of a range of bytes. -/
def slice (cs : List Char) (r : TextRange) : List Char :=
  takeBytes (r.stop - r.start) (dropBytes r.start cs)

/-- One character further: a line feed starts the next row. -/
def advance (p : Point) (c : Char) : Point :=
  if c = '\n' then ⟨p.row + 1, 0⟩ else ⟨p.row, p.column + c.utf8Size⟩

/-- The row and the column behind a text. -/
def endPoint (cs : List Char) : Point :=
  cs.foldl advance ⟨0, 0⟩

/-- The row of an offset is the number of line feeds before it, its column the number of bytes since
the last one. -/
def pointAt (cs : List Char) (offset : Nat) : Point :=
  endPoint (takeBytes offset cs)

/-- The part of the line before an offset, read backwards. -/
def lineBefore (cs : List Char) (offset : Nat) : List Char :=
  (takeBytes offset cs).reverse.takeWhile (· ≠ '\n')

/-- An empty text has no bytes. -/
@[simp] theorem byteLength_nil : byteLength [] = 0 := rfl

/-- The first character adds its bytes. -/
@[simp] theorem byteLength_cons (c : Char) (cs : List Char) :
    byteLength (c :: cs) = c.utf8Size + byteLength cs := rfl

/-- The bytes of two texts add up. -/
theorem byteLength_append (as bs : List Char) :
    byteLength (as ++ bs) = byteLength as + byteLength bs := by
  induction as with
  | nil => simp
  | cons c cs ih => simp [ih, Nat.add_assoc]

/-- Cutting at an offset loses nothing. -/
theorem takeBytes_append_dropBytes (n : Nat) (cs : List Char) :
    takeBytes n cs ++ dropBytes n cs = cs := by
  induction cs generalizing n with
  | nil => rfl
  | cons c cs ih => by_cases h : n = 0 <;> simp [takeBytes, dropBytes, h, ih]

end Text
end LoopLint
