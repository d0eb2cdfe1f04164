import LoopLint.Diagnostic.Basic
import LoopLint.Json.Decode

/-!
# Diagnostics as JSON

A diagnostic is written as an object with the keys `message`, `filename`, `range` and `location`,
and read back from such an object.
-/

namespace LoopLint

open Json (Decoder)

namespace Message

def toJson (m : Message) : Json :=
  .obj [("name", .str m.name), ("body", .str m.body), ("suggestion", .optionalText m.suggestion)]

/-- Reads a message. -/
def decode : Decoder Message := fun v => do
  let text := Json.decodeText "a string"
  let values ← Json.decodeRecord "ViolationData"
    [⟨"name", Json.checked text, false⟩, ⟨"body", Json.checked text, false⟩,
      ⟨"suggestion", Json.checked (Json.decodeOption text), true⟩] v
  match values with
  | [name, body, suggestion] =>
    return { name := ← text name, body := ← text body,
             suggestion := ← Json.decodeOption text suggestion }
  | _ => .error (.wrongType v.describe "struct ViolationData")

end Message

namespace TextRange

def toJson (r : TextRange) : Json :=
  .obj [("start", .nat r.start), ("end", .nat r.stop)]

/-- Reads a range. -/
def decode : Decoder TextRange := fun v => do
  let values ← Json.decodeRecord "TextRange"
    [⟨"start", Json.checked Json.decodeNat, false⟩, ⟨"end", Json.checked Json.decodeNat, false⟩] v
  match values with
  | [start, stop] => return { start := ← Json.decodeNat start, stop := ← Json.decodeNat stop }
  | _ => .error (.wrongType v.describe "struct TextRange")

end TextRange

namespace Location

def toJson (l : Location) : Json :=
  .obj [("row", .nat l.row), ("column", .nat l.column)]

/-- Reads a location. -/
def decode : Decoder Location := fun v => do
  let values ← Json.decodeRecord "Location"
    [⟨"row", Json.checked Json.decodeNat, false⟩, ⟨"column", Json.checked Json.decodeNat, false⟩] v
  match values with
  | [row, column] => return { row := ← Json.decodeNat row, column := ← Json.decodeNat column }
  | _ => .error (.wrongType v.describe "struct Location")

end Location

namespace Diagnostic

def toJson (d : Diagnostic) : Json :=
  .obj [("message", d.message.toJson), ("filename", .str d.filename.text),
    ("range", d.range.toJson),
    ("location", match d.location with | some l => l.toJson | none => .null)]

/-- Reads a diagnostic. -/
def decode : Decoder Diagnostic := fun v => do
  let path := Json.decodeText "path string"
  let location := Json.decodeOption Location.decode
  let values ← Json.decodeRecord "Diagnostic"
    [⟨"message", Json.checked Message.decode, false⟩, ⟨"filename", Json.checked path, false⟩,
      ⟨"range", Json.checked TextRange.decode, false⟩, ⟨"location", Json.checked location, true⟩] v
  match values with
  | [m, f, r, l] =>
    return { message := ← Message.decode m, filename := ⟨← path f⟩, range := ← TextRange.decode r,
             location := ← location l }
  | _ => .error (.wrongType v.describe "struct Diagnostic")

end Diagnostic
end LoopLint
