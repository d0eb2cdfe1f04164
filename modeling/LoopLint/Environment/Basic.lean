import LoopLint.Environment.Entry

/-!
# The environment of a run

Everything that a run can see of the world: the file tree, the working directory (if it is known),
and the environment variables.
-/

namespace LoopLint

/-- What a run can see of the world. -/
structure Environment where
  root : Entry
  directory : Option Path
  vars : List (String × String)

namespace Environment

/-- The value of a variable. -/
def value? (env : Environment) (name : String) : Option String :=
  (env.vars.find? (fun v => v.1 == name)).map (·.2)

/-- The number of links that may be taken on the way to a file. -/
def linkLimit : Nat := 40

/-- The number of bytes that a path must stay below. -/
def pathLimit : Nat := 4096

/-- The names on the real way from the root to what a path stands for. -/
def locate (env : Environment) (p : Path) : Except FileError (List String) :=
  if p.text = "" then .error .notFound
  else if pathLimit ≤ p.text.utf8ByteSize then .error .nameTooLong
  else if p.isAbsolute then
    (env.root.resolve linkLimit [] p.segments).map List.reverse
  else match env.directory with
    | none => .error .notFound
    | some d =>
      (env.root.resolve linkLimit (Path.walk d.components).reverse p.segments).map List.reverse

/-- What a path stands for once all links are followed. -/
def find (env : Environment) (p : Path) : Except FileError Entry := do
  let names ← env.locate p
  match env.root.at? names with
  | some e => .ok e
  | none => .error .notFound

/-- Whether a path leads to a file. -/
def isFile (env : Environment) (p : Path) : Bool :=
  match env.find p with
  | .ok (.file _) => true
  | _ => false

/-- The bytes of a file. -/
def readBytes (env : Environment) (p : Path) : Except FileError ByteArray := do
  match ← env.find p with
  | .file content => .ok content
  | _ => .error .isADirectory

/-- The text of a file. -/
def readText (env : Environment) (p : Path) : Except FileError String := do
  match String.fromUTF8? (← env.readBytes p) with
  | some s => .ok s
  | none => .error .notText

/-- The environment with one more entry.  Links on the way to it are followed, and directories on
the way are made. -/
def place (env : Environment) (p : Path) (e : Entry) : Environment :=
  let names := Path.walk p.components
  let parent := match env.locate (Path.ofNames names.dropLast) with
    | .ok real => real
    | .error _ => names.dropLast
  { env with root := env.root.insert (parent ++ names.getLast?.toList) e }

/-- The path seen from the working directory. -/
def relativize (env : Environment) (p : Path) : String :=
  p.relativize env.directory

/-- The path from the root without `.` and `..`. -/
def normalize (env : Environment) (p : Path) : Path :=
  p.normalize env.directory

end Environment
end LoopLint
