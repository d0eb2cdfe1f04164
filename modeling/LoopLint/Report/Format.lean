import LoopLint.Json.Decode

/-!
# Report formats
-/

namespace LoopLint

/-- How findings are shown. -/
inductive ReportFormat where
  /-- With the source lines that they are about. -/
  | full
  /-- One on each line. -/
  | concise
  /-- As commands for annotations on GitHub. -/
  | github
  /-- As one JSON document. -/
  | json
deriving DecidableEq, Repr

namespace ReportFormat

/-- All formats. -/
def all : List ReportFormat := [full, concise, github, json]

/-- The name of a format on the command line. -/
def name : ReportFormat → String
  | full => "full"
  | concise => "concise"
  | github => "github"
  | json => "json"

/-- The format with the given name. -/
def ofName? (s : String) : Option ReportFormat :=
  all.find? (fun f => f.name == s)

/-- The name of a format in data. -/
def tag : ReportFormat → String
  | full => "Full"
  | concise => "Concise"
  | github => "Github"
  | json => "Json"

/-- The format that is used when none is asked for. -/
protected def default : ReportFormat := full

/-- The format with the given name in data. -/
def ofTag (s : String) : Except Json.DecodeError ReportFormat :=
  match all.find? (fun f => f.tag == s) with
  | some f => .ok f
  | none => .error (.unknownVariant s (all.map tag))

/-- A format in data: its name, or an object with the name as its only key and null as its value. -/
def decode : Json.Decoder ReportFormat
  | .str s => ofTag s
  | .obj [(s, v)] => do
    let f ← ofTag s
    match v with
    | .null => .ok f
    | v => .error (.wrongType v.describe "unit")
  | .obj _ => .error (.wrongValue "map" "map with a single key")
  | v => .error (.wrongType v.describe "string or map")

end ReportFormat
end LoopLint
