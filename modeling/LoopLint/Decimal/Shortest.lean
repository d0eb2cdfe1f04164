import LoopLint.Decimal.Binary

/-!
# The shortest decimal text

A number is shown with the fewest digits that read back as the same number, and of those with the
nearest ones, always without an exponent.
-/

namespace LoopLint.Decimal

/-- The numbers that read as one and the same double: those between two fractions over one
denominator, the ends included or not. -/
structure Interval where
  low : Nat
  high : Nat
  den : Nat
  closed : Bool

namespace Interval

/-- Whether a fraction lies in the interval. -/
def contains (i : Interval) (num den : Nat) : Bool :=
  if i.closed then i.low * den ≤ num * i.den && num * i.den ≤ i.high * den
  else i.low * den < num * i.den && num * i.den < i.high * den

/-- The numbers that read as `m * 2 ^ e`.  Below a power of two the neighbours are nearer. -/
def around (m : Nat) (e : Int) : Interval :=
  let narrow : Bool := m == Nat.pow 2 (Binary.precision - 1) && Binary.leastExponent < e
  let (low, den) := scaled 2 (4 * m - (if narrow then 1 else 2)) (e - 2)
  let (high, _) := scaled 2 (4 * m + 2) (e - 2)
  ⟨low, high, den, m % 2 == 0⟩

end Interval

/-- The least `t` from a start on with `num / den < 10 ^ t`. -/
def placesBefore (num den : Nat) (fuel : Nat) (t : Int) : Int :=
  match fuel with
  | 0 => t
  | fuel + 1 =>
    let (a, b) := scaled 10 1 t
    if num * b < a * den then t else placesBefore num den fuel (t + 1)

/-- The digits and their exponent, on the first grid that has a point in the interval.  The next
power of ten is a single digit. -/
def shortestDigits (i : Interval) (num den : Nat) (top : Int) (digits fuel : Nat) : Nat × Int :=
  let e := top - digits
  let (a, b) := scaled 10 1 e
  let down := num * b / (den * a)
  let up := down + 1
  let hit (d : Nat) : Bool := i.contains (d * a) b
  let nearer : Bool := 2 * (num * b) ≤ (2 * down + 1) * (den * a)
  let above : Nat × Int := if up = Nat.pow 10 digits then (1, top) else (up, e)
  match fuel with
  | 0 => (down, e)
  | fuel + 1 =>
    if hit down && hit up then if nearer then (down, e) else above
    else if hit down then (down, e)
    else if hit up then above
    else shortestDigits i num den top (digits + 1) fuel

/-- A number without exponent, with at least one digit on each side of the point. -/
def positional (digits : Nat) (e : Int) : List Char :=
  let ds := Nat.toDigits 10 digits
  if 0 ≤ e then ds ++ List.replicate e.toNat '0' ++ ['.', '0']
  else
    let places := (-e).toNat
    let padded := List.replicate (places + 1 - ds.length) '0' ++ ds
    let whole := padded.length - places
    padded.take whole ++ '.' :: padded.drop whole

/-- The text of a number. -/
def Binary.text : Binary → String
  | finite negative m e =>
    let body :=
      if m = 0 then ['0', '.', '0']
      else
        let (num, den) := scaled 2 m e
        let top := placesBefore num den 700 (-330)
        let (digits, e) := shortestDigits (Interval.around m e) num den top 1 17
        positional digits e
    String.ofList (if negative then '-' :: body else body)
  | infinite negative => if negative then "-inf" else "inf"
  | undefined => "NaN"

end LoopLint.Decimal
