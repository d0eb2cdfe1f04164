import LoopLint.Decimal.Shortest
import LoopLint.Environment.Basic
import LoopLint.Text.Quoted
import LoopLint.Toml.Document
import LoopLint.Toml.Excerpt

/-!
# Settings

The settings of a project stand in a TOML document with one table, `lint`, which has two fields: a
list of exclude patterns, and whether the usual exclude patterns apply.  Fields are looked at in the
order of the document, and the first one that is wrong is reported.
-/

namespace LoopLint

/-- What can be set.  A missing value leaves things as they are. -/
structure Settings where
  exclude : Option (List String)
  defaultExclude : Option Bool
deriving DecidableEq, Repr

namespace Settings

/-- Nothing is set. -/
def unset : Settings := ⟨none, none⟩

/-- What is wrong with a document. -/
inductive Problem where
  /-- The text is no document, or a list does not have the items of a table. -/
  | malformed
  /-- A field with a name that means nothing. -/
  | unknownField (range : TextRange) (name expected : String)
  /-- A value of another type than the expected one. -/
  | wrongType (range : TextRange) (found expected : String)
deriving DecidableEq, Repr

/-- What is said of a problem, if there is more to say than that there is one. -/
def Problem.detail? (source : String) : Problem → Option String
  | malformed => none
  | unknownField range name expected =>
    some (Toml.excerpt source range ("unknown field `" ++ name ++ "`, expected " ++ expected))
  | wrongType range found expected =>
    some (Toml.excerpt source range ("invalid type: " ++ found ++ ", expected " ++ expected))

/-- The words for the type of a scalar.  Dates are tables to whom knows only tables. -/
def describeScalar : Toml.Scalar → String
  | .string s => "string " ++ Text.quoted s
  | .integer n => "integer `" ++ toString n ++ "`"
  | .float x => "floating point `" ++ x.text ++ "`"
  | .boolean b => "boolean `" ++ (if b then "true" else "false") ++ "`"
  | .date => "map"

/-- The words for the type of a value. -/
def describe : Toml.Value → String
  | .scalar s _ => describeScalar s
  | .array _ _ => "sequence"
  | .table _ _ _ => "map"
  | .tables _ _ => "sequence"

/-- A value of the wrong type.  One without a place of its own is reported at its key. -/
def mismatch (key : TextRange) (v : Toml.Value) (expected : String) : Problem :=
  .wrongType (v.range?.getD key) (describe v) expected

/-- The items of a list. -/
def items? : Toml.Value → Option (List Toml.Value)
  | .array items _ => some items
  | .tables items _ => some (items.map fun (entries, r) => .table .header entries (some r))
  | _ => none

/-- A pattern. -/
def decodePattern (key : TextRange) : Toml.Value → Except Problem String
  | .scalar (.string s) _ => .ok s
  | v => .error (mismatch key v "a string")

/-- A list of patterns. -/
def decodePatterns (key : TextRange) (v : Toml.Value) : Except Problem (List String) :=
  match items? v with
  | some items => items.mapM (decodePattern key)
  | none => .error (mismatch key v "a sequence")

/-- Yes or no. -/
def decodeFlag (key : TextRange) : Toml.Value → Except Problem Bool
  | .scalar (.boolean b) _ => .ok b
  | v => .error (mismatch key v "a boolean")

/-- The fields of the table. -/
def knownFields : String := "`exclude` or `default-exclude`"

/-- The settings with a field of the table. -/
def decodeField (s : Settings) (key : Toml.Key) (v : Toml.Value) : Except Problem Settings :=
  match key.name with
  | "exclude" => do
    let patterns ← decodePatterns key.range v
    .ok { s with exclude := some patterns }
  | "default-exclude" => do
    let b ← decodeFlag key.range v
    .ok { s with defaultExclude := some b }
  | name => .error (.unknownField key.range name knownFields)

/-- The table of settings.  A list stands for the fields in their order, and a date for a table with
a field of its own. -/
def decodeTable (key : TextRange) (v : Toml.Value) : Except Problem Settings :=
  match v with
  | .table _ entries _ => entries.foldlM (fun s e => s.decodeField e.1 e.2) unset
  | .scalar .date r => .error (.unknownField r "$__toml_private_datetime" knownFields)
  | .scalar _ _ => .error (mismatch key v "struct LinterTomlOptions")
  | .array _ _ | .tables _ _ =>
    match (items? v).getD [] with
    | [] => .error .malformed
    | first :: rest => do
      let patterns ← decodePatterns key first
      match rest with
      | [] => .error .malformed
      | second :: _ => do
        let b ← decodeFlag key second
        .ok ⟨some patterns, some b⟩

/-- The settings in a document, if it has any. -/
def decodeDocument (entries : Toml.Entries) : Except Problem (Option Settings) :=
  entries.foldlM (fun _ e =>
    match e.1.name with
    | "lint" => (decodeTable e.1.range e.2).map some
    | name => .error (.unknownField e.1.range name "`lint`")) none

end Settings

/-- Why settings could not be taken from a file. -/
inductive SettingsError where
  | unreadable (file : Path) (e : FileError)
  | invalid (file : Path) (detail : Option String)
deriving DecidableEq, Repr

/-- What is said of it.  The file is named as it was found, so that it is easy to open. -/
def SettingsError.text : SettingsError → String
  | unreadable file e => "Failed to read " ++ file.text ++ ":\n" ++ e.text
  | invalid file none => "Failed to parse " ++ file.text ++ ":"
  | invalid file (some detail) => "Failed to parse " ++ file.text ++ ":\n" ++ detail

namespace Settings

/-- The settings in a file, if it has any. -/
def read (env : Environment) (file : Path) : Except SettingsError (Option Settings) :=
  match env.readText file with
  | .error e => .error (.unreadable file e)
  | .ok source =>
    match Toml.parse source with
    | none => .error (.invalid file none)
    | some entries =>
      match decodeDocument entries with
      | .error problem => .error (.invalid file (problem.detail? source))
      | .ok settings => .ok settings

/-- The names of a settings file; the first one that exists counts. -/
def fileNames : List Path := [⟨"forof.toml"⟩, ⟨".forof.toml"⟩]

/-- The settings file in a directory. -/
def fileIn? (env : Environment) (directory : Path) : Option Path :=
  (fileNames.map directory.join).find? env.isFile

end Settings
end LoopLint
