import LoopLint.Json.Basic

/-!
# Reading JSON texts

The reader beside `Json.pretty`.  It takes any spelling of a value: blanks between its parts, and
escapes in its texts where none are needed.  Numbers have to be whole.
-/

namespace LoopLint.Json

/-- The characters that may stand between the parts of a value. -/
def isGap (c : Char) : Bool :=
  c == ' ' || c == '\n' || c == '\r' || c == '\t'

/-- The text behind the leading blanks. -/
def skipGap (cs : List Char) : List Char :=
  cs.dropWhile isGap

/-! ### Texts -/

/-- A part of a text as it is written: a character, or the number of a UTF-16 unit. -/
inductive TextUnit where
  | plain (c : Char)
  | code (n : Nat)
deriving DecidableEq, Repr

/-- The value of a hexadecimal digit. -/
def hexValue? (c : Char) : Option Nat :=
  if c.isDigit then some (c.toNat - '0'.toNat)
  else if 'a' ≤ c ∧ c ≤ 'f' then some (c.toNat - 'a'.toNat + 10)
  else if 'A' ≤ c ∧ c ≤ 'F' then some (c.toNat - 'A'.toNat + 10)
  else none

/-- The number with the given hexadecimal digits. -/
def hexNumber? (cs : List Char) : Option Nat :=
  cs.foldlM (fun n c => (hexValue? c).map (16 * n + ·)) 0

/-- What a character behind a backslash stands for. -/
def unescape? : Char → Option Char
  | '"' => some '"'
  | '\\' => some '\\'
  | '/' => some '/'
  | 'b' => some '\x08'
  | 'f' => some '\x0c'
  | 'n' => some '\n'
  | 'r' => some '\r'
  | 't' => some '\t'
  | _ => none

/-- The parts of a text behind its opening quote, and what follows the closing one. -/
def readUnits : List Char → Option (List TextUnit × List Char)
  | [] => none
  | '"' :: cs => some ([], cs)
  | '\\' :: 'u' :: a :: b :: c :: d :: cs => do
    let n ← hexNumber? [a, b, c, d]
    let (us, rest) ← readUnits cs
    some (.code n :: us, rest)
  | '\\' :: e :: cs => do
    let c ← unescape? e
    let (us, rest) ← readUnits cs
    some (.plain c :: us, rest)
  | c :: cs =>
    if c = '\\' ∨ c.toNat < 0x20 then none
    else do
      let (us, rest) ← readUnits cs
      some (.plain c :: us, rest)

/-- Whether a unit is the first half of a character. -/
def isHigh (n : Nat) : Bool := 0xD800 ≤ n && n < 0xDC00

/-- Whether a unit is the second half of a character. -/
def isLow (n : Nat) : Bool := 0xDC00 ≤ n && n < 0xE000

/-- The characters of some parts.  A half of a character needs the other one next to it. -/
def joinUnits : List TextUnit → Option (List Char)
  | [] => some []
  | .plain c :: us => (joinUnits us).map (c :: ·)
  | .code n :: .code m :: us =>
    if isHigh n then
      if isLow m then
        (joinUnits us).map (Char.ofNat (0x10000 + 0x400 * (n - 0xD800) + (m - 0xDC00)) :: ·)
      else none
    else if isLow n then none
    else (joinUnits (.code m :: us)).map (Char.ofNat n :: ·)
  | .code n :: us =>
    if isHigh n || isLow n then none else (joinUnits us).map (Char.ofNat n :: ·)

/-- A text behind its opening quote. -/
def readText (cs : List Char) : Option (String × List Char) := do
  let (us, rest) ← readUnits cs
  let text ← joinUnits us
  some (String.ofList text, rest)

/-! ### Numbers -/

/-- The number with the given decimal digits. -/
def ofDigits (cs : List Char) : Nat :=
  cs.foldl (fun n c => 10 * n + (c.toNat - '0'.toNat)) 0

/-- A natural number without needless zeros, and without a fraction or an exponent behind it. -/
def readNat (cs : List Char) : Option (Nat × List Char) :=
  let digits := cs.takeWhile Char.isDigit
  let rest := cs.dropWhile Char.isDigit
  let needless : Bool := digits.isEmpty || (digits.head? == some '0' && digits.length != 1)
  let partly : Bool := match rest with
    | c :: _ => c == '.' || c == 'e' || c == 'E'
    | [] => false
  if needless || partly then none else some (ofDigits digits, rest)

/-- A whole number. -/
def readInt : List Char → Option (Int × List Char)
  | '-' :: cs => (readNat cs).map (fun r => (-(r.1 : Int), r.2))
  | cs => (readNat cs).map (fun r => ((r.1 : Int), r.2))

/-! ### Values -/

mutual

/-- A value at the start of a text, and what follows it.  The first argument bounds the steps. -/
def readValue : Nat → List Char → Option (Json × List Char)
  | 0, _ => none
  | fuel + 1, cs =>
    match cs with
    | 'n' :: 'u' :: 'l' :: 'l' :: rest => some (null, rest)
    | 't' :: 'r' :: 'u' :: 'e' :: rest => some (bool true, rest)
    | 'f' :: 'a' :: 'l' :: 's' :: 'e' :: rest => some (bool false, rest)
    | '"' :: rest => (readText rest).map (fun r => (str r.1, r.2))
    | '[' :: rest =>
      match skipGap rest with
      | ']' :: rest => some (arr [], rest)
      | rest => (readItems fuel rest).map (fun r => (arr r.1, r.2))
    | '\x7b' :: rest =>
      match skipGap rest with
      | '\x7d' :: rest => some (obj [], rest)
      | rest => (readEntries fuel rest).map (fun r => (obj r.1, r.2))
    | cs => (readInt cs).map (fun r => (num r.1, r.2))

/-- The items of an array from one of them on, and what follows the array. -/
def readItems : Nat → List Char → Option (List Json × List Char)
  | 0, _ => none
  | fuel + 1, cs => do
    let (item, rest) ← readValue fuel cs
    match skipGap rest with
    | ',' :: rest => (readItems fuel (skipGap rest)).map (fun r => (item :: r.1, r.2))
    | ']' :: rest => some ([item], rest)
    | _ => none

/-- The entries of an object from one of them on, and what follows the object. -/
def readEntries : Nat → List Char → Option (List (String × Json) × List Char)
  | 0, _ => none
  | fuel + 1, cs =>
    match cs with
    | '"' :: cs => do
      let (key, rest) ← readText cs
      match skipGap rest with
      | ':' :: rest => do
        let (value, rest) ← readValue fuel (skipGap rest)
        match skipGap rest with
        | ',' :: rest => (readEntries fuel (skipGap rest)).map (fun r => ((key, value) :: r.1, r.2))
        | '\x7d' :: rest => some ([(key, value)], rest)
        | _ => none
      | _ => none
    | _ => none

end

/-- The value that a text stands for.  Two steps for each character are enough: an opening bracket
takes two, and any other character at most one. -/
def parse? (text : String) : Option Json :=
  let cs := text.toList
  match readValue (2 * cs.length + 2) (skipGap cs) with
  | some (v, rest) => if (skipGap rest).isEmpty then some v else none
  | none => none

end LoopLint.Json
