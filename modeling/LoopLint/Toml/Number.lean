import LoopLint.Toml.Text

/-!
# Numbers and dates of TOML
-/

namespace LoopLint.Toml

open Scanner

/-- A sign: whether it is a minus. -/
def sign : Scanner Bool :=
  (do let _ ← char '-'; pure true) <|> (do let _ ← char '+'; pure false)

/-- Digits, between which single underscores may stand. -/
def digits (isDigit : Char → Bool) : Scanner (List Char) := do
  let d ← charWhere isDigit
  let ds ← many ((do let _ ← maybe (char '_'); charWhere isDigit))
  pure (d :: ds)

/-- Decimal digits without a needless zero in front. -/
def plainDigits : Scanner (List Char) := do
  match ← peek with
  | some '0' => do
    let d ← char '0'
    pure [d]
  | _ => digits Char.isDigit

/-- The number that digits stand for. -/
def ofDigits (base : Nat) (ds : List Char) : Nat :=
  (ds.filterMap hexDigit?).foldl (fun acc d => base * acc + d) 0

/-- A whole number with a mark for its base. -/
def basedInteger (mark : Char) (base : Nat) (isDigit : Char → Bool) : Scanner Int := do
  text ['0', mark]
  let ds ← digits isDigit
  pure (ofDigits base ds)

/-- A whole number in base ten. -/
def decimalInteger : Scanner Int := do
  let negative ← maybe sign
  let ds ← plainDigits
  let n : Int := ofDigits 10 ds
  pure (if negative = some true then -n else n)

/-- A whole number of 64 bits. -/
def integer : Scanner Int := do
  let n ← basedInteger 'x' 16 (fun c => (hexDigit? c).isSome) <|>
    basedInteger 'o' 8 (fun c => '0' ≤ c && c ≤ '7') <|>
    basedInteger 'b' 2 (fun c => c == '0' || c == '1') <|> decimalInteger
  require (-0x8000000000000000 ≤ n && n < 0x8000000000000000)
  pure n

/-- The exponent of a floating point number. -/
def exponent : Scanner Int := do
  let _ ← charWhere (fun c => c == 'e' || c == 'E')
  let negative ← maybe sign
  let ds ← digits Char.isDigit
  let n : Int := ofDigits 10 ds
  pure (if negative = some true then -n else n)

/-- A floating point number with a fraction or an exponent.  One that is too large is refused. -/
def finiteFloat : Scanner Decimal.Binary := do
  let negative ← maybe sign
  let whole ← plainDigits
  let fraction ← maybe (do let _ ← char '.'; digits Char.isDigit)
  let e ← if fraction.isSome then maybe exponent else (do let e ← exponent; pure (some e))
  let places := fraction.getD []
  let x := Decimal.Binary.ofDecimal (negative == some true) (ofDigits 10 (whole ++ places))
    (e.getD 0 - places.length)
  require (x != .infinite false)
  pure x

/-- Infinity, or no number at all. -/
def specialFloat : Scanner Decimal.Binary := do
  let negative ← maybe sign
  (do text ['i', 'n', 'f']; pure (.infinite (negative == some true))) <|>
    (do text ['n', 'a', 'n']; pure .undefined)

/-- A number of exactly `n` digits within bounds. -/
def fixedNumber (n low high : Nat) : Scanner Nat := do
  let ds ← exactly (charWhere Char.isDigit) n
  let k := ofDigits 10 ds
  require (low ≤ k && k ≤ high)
  pure k

/-- The number of days in a month. -/
def daysIn (year month : Nat) : Nat :=
  if month = 2 then
    if year % 4 = 0 ∧ (year % 100 ≠ 0 ∨ year % 400 = 0) then 29 else 28
  else if month = 4 ∨ month = 6 ∨ month = 9 ∨ month = 11 then 30
  else 31

/-- A day of the calendar. -/
def fullDate : Scanner Unit := do
  let year ← fixedNumber 4 0 9999
  let _ ← char '-'
  let month ← fixedNumber 2 1 12
  let _ ← char '-'
  let day ← fixedNumber 2 1 31
  require (day ≤ daysIn year month)

/-- A time of the day. -/
def partialTime : Scanner Unit := do
  let _ ← fixedNumber 2 0 23
  let _ ← char ':'
  let _ ← fixedNumber 2 0 59
  let _ ← char ':'
  let _ ← fixedNumber 2 0 60
  let _ ← maybe (do
    let _ ← char '.'
    let _ ← many1 (charWhere Char.isDigit))

/-- The distance of a time zone. -/
def timeOffset : Scanner Unit :=
  (do let _ ← charWhere (fun c => c == 'Z' || c == 'z')) <|> (do
    let _ ← sign
    let _ ← fixedNumber 2 0 23
    let _ ← char ':'
    let _ ← fixedNumber 2 0 59)

/-- A date, a time, or both. -/
def dateTime : Scanner Unit :=
  (do
    fullDate
    let _ ← maybe (do
      let _ ← charWhere (fun c => c == 'T' || c == 't' || c == ' ')
      partialTime
      let _ ← maybe timeOffset)) <|> partialTime

/-- A value without parts. -/
def scalar : Scanner Scalar :=
  (do let s ← anyString; pure (.string s)) <|>
    (do dateTime; pure .date) <|>
    (do let x ← finiteFloat <|> specialFloat; pure (.float x)) <|>
    (do let n ← integer; pure (.integer n)) <|>
    (do text ['t', 'r', 'u', 'e']; pure (.boolean true)) <|>
    (do text ['f', 'a', 'l', 's', 'e']; pure (.boolean false))

end LoopLint.Toml
