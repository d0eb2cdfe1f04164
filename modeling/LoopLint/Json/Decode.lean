import LoopLint.Json.Basic

/-!
# Reading JSON values

What it means to read a text, a number or a record from a JSON value, and what is said when that
fails.  A record is read from an object, in which unknown entries are passed over, or from an array
that holds its fields in order.
-/

namespace LoopLint.Json

/-- Why a value could not be read. -/
inductive DecodeError where
  /-- The value is of another type. -/
  | wrongType (found expected : String)
  /-- The value is of the right type, but cannot be meant. -/
  | wrongValue (found expected : String)
  /-- An array has the wrong number of items. -/
  | wrongLength (found : Nat) (expected : String)
  /-- A record lacks a field. -/
  | missingField (name : String)
  /-- A name is none of the known ones. -/
  | unknownVariant (found : String) (known : List String)
deriving DecidableEq, Repr

/-- A name between backticks. -/
def ticked (s : String) : String := "`" ++ s ++ "`"

/-- What is said of an error. -/
def DecodeError.text : DecodeError → String
  | wrongType found expected => "invalid type: " ++ found ++ ", expected " ++ expected
  | wrongValue found expected => "invalid value: " ++ found ++ ", expected " ++ expected
  | wrongLength found expected => "invalid length " ++ toString found ++ ", expected " ++ expected
  | missingField name => "missing field " ++ ticked name
  | unknownVariant found known =>
    "unknown variant " ++ ticked found ++ ", expected one of " ++
      ", ".intercalate (known.map ticked)

/-- A way to read a value. -/
abbrev Decoder (α : Type) := Json → Except DecodeError α

/-- A text; `expected` is what the message calls it. -/
def decodeText (expected : String) : Decoder String
  | str s => .ok s
  | v => .error (.wrongType v.describe expected)

/-- A natural number.  It may be of any size: the numbers in diagnostics are offsets, rows and
columns in a text, and no bound is set on the size of a text either. -/
def decodeNat : Decoder Nat
  | num (.ofNat n) => .ok n
  | num n => .error (.wrongValue (num n).describe "usize")
  | v => .error (.wrongType v.describe "usize")

/-- Null, or a value. -/
def decodeOption {α : Type} (d : Decoder α) : Decoder (Option α)
  | null => .ok none
  | v => (d v).map some

/-- The items of an array, read from left to right. -/
def decodeList {α : Type} (d : Decoder α) : Decoder (List α)
  | arr items => items.mapM d
  | v => .error (.wrongType v.describe "a sequence")

/-- The entry of an object with the given key. -/
def member? (entries : List (String × Json)) (key : String) : Option Json :=
  (entries.find? (fun e => e.1 == key)).map (·.2)

/-- A field of a record: its name, and a check of its value. -/
structure FieldRule where
  name : String
  check : Decoder Unit
  optional : Bool

/-- Forget the value and keep the error. -/
def checked {α : Type} (d : Decoder α) : Decoder Unit := fun v => (d v).map (fun _ => ())

/-- The values of a record's fields, in the order of the rules.  In an object the entries are
checked in the order in which they stand, and only then the missing ones are noticed; a missing
optional field is null. -/
def decodeRecord (name : String) (rules : List FieldRule) : Decoder (List Json)
  | obj entries => do
    entries.forM (fun e =>
      match rules.find? (fun r => r.name == e.1) with
      | some r => r.check e.2
      | none => .ok ())
    rules.mapM (fun r =>
      match member? entries r.name with
      | some v => .ok v
      | none => if r.optional then .ok null else .error (.missingField r.name))
  | arr items => do
    (rules.zip items).forM (fun p => p.1.check p.2)
    if items.length < rules.length then
      .error (.wrongLength items.length s!"struct {name} with {rules.length} elements")
    else if rules.length < items.length then
      .error (.wrongLength items.length "fewer elements in array")
    else .ok items
  | v => .error (.wrongType v.describe ("struct " ++ name))

end LoopLint.Json
