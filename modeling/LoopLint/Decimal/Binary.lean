/-!
# Binary floating point numbers

A number of double precision is a whole number of at most 53 bits times a power of two.  A decimal
number is read as the nearest such number, the even one of two that are equally near.  All steps are
done with whole numbers.
-/

namespace LoopLint.Decimal

/-- A number of double precision.  A finite one is `significand * 2 ^ exponent`. -/
inductive Binary where
  | finite (negative : Bool) (significand : Nat) (exponent : Int)
  | infinite (negative : Bool)
  | undefined
deriving DecidableEq, Repr

/-- `n * base ^ e` as a fraction. -/
def scaled (base n : Nat) (e : Int) : Nat × Nat :=
  if 0 ≤ e then (n * Nat.pow base e.toNat, 1) else (n, Nat.pow base (-e).toNat)

/-- The quotient rounded to the nearest number, a half to the even one. -/
def roundDiv (num den : Nat) : Nat :=
  let q := num / den
  let twice := 2 * (num % den)
  if twice < den then q
  else if den < twice then q + 1
  else if q % 2 = 0 then q else q + 1

/-- The largest `k` with `2 ^ k ≤ num / den`. -/
def floorLog2 (num den : Nat) : Int :=
  let k : Int := (Nat.log2 num : Int) - Nat.log2 den
  let (a, b) := scaled 2 den k
  if num * b < a then k - 1 else k

namespace Binary

/-- The bits of a significand. -/
def precision : Nat := 53

/-- The least exponent. -/
def leastExponent : Int := -1074

/-- The greatest exponent. -/
def greatestExponent : Int := 971

/-- The number nearest to a positive fraction. -/
def ofFraction (negative : Bool) (num den : Nat) : Binary :=
  let e := max leastExponent (floorLog2 num den - (precision - 1))
  let (a, b) := scaled 2 den e
  let m := roundDiv (num * b) a
  let (m, e) := if m = Nat.pow 2 precision then (Nat.pow 2 (precision - 1), e + 1) else (m, e)
  if greatestExponent < e then infinite negative else finite negative m e

/-- The number nearest to `digits * 10 ^ e`.  Far too large and far too small numbers are not
computed. -/
def ofDecimal (negative : Bool) (digits : Nat) (e : Int) : Binary :=
  let places : Int := (Nat.toDigits 10 digits).length + e
  if digits = 0 ∨ places < -400 then finite negative 0 0
  else if 400 < places then infinite negative
  else
    let (num, den) := scaled 10 digits e
    ofFraction negative num den

end Binary
end LoopLint.Decimal
