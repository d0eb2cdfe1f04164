import LoopLint.Text.Quoted

/-!
# JSON values

The values of the data format JSON, as far as the program needs them: its numbers are whole.  A
value is written over several lines, each level two blanks further in.
-/

namespace LoopLint

/-- A JSON value.  The entries of an object are kept in order. -/
inductive Json where
  | null
  | bool (b : Bool)
  | num (n : Int)
  | str (s : String)
  | arr (items : List Json)
  | obj (entries : List (String × Json))
deriving Inhabited, Repr

namespace Json

/-- A number that is not negative. -/
def nat (n : Nat) : Json := num n

/-- A text, or null. -/
def optionalText : Option String → Json
  | some s => str s
  | none => null

/-- What kind of value it is, in the words of an error message. -/
def describe : Json → String
  | null => "null"
  | bool b => "boolean `" ++ (if b then "true" else "false") ++ "`"
  | num n => "integer `" ++ toString n ++ "`"
  | str s => "string " ++ Text.quoted s
  | arr _ => "sequence"
  | obj _ => "map"

/-! ### Writing -/

/-- A character inside a JSON string. -/
def escapeChar (c : Char) : List Char :=
  if c = '"' then ['\\', '"']
  else if c = '\\' then ['\\', '\\']
  else if c = '\n' then ['\\', 'n']
  else if c = '\r' then ['\\', 'r']
  else if c = '\t' then ['\\', 't']
  else if c = '\x08' then ['\\', 'b']
  else if c = '\x0c' then ['\\', 'f']
  else if c.toNat < 0x10 then ['\\', 'u', '0', '0', '0'] ++ Text.hexDigits c.toNat
  else if c.toNat < 0x20 then ['\\', 'u', '0', '0'] ++ Text.hexDigits c.toNat
  else [c]

/-- A JSON string. -/
def quote (s : String) : String :=
  String.ofList ('"' :: s.toList.flatMap escapeChar ++ ['"'])

/-- The start of a line at the given level. -/
def indent (level : Nat) : String :=
  "\n" ++ String.ofList (List.replicate (2 * level) ' ')

mutual

/-- The text of a value that starts at the given level. -/
def render (level : Nat) : Json → String
  | null => "null"
  | bool b => if b then "true" else "false"
  | num n => toString n
  | str s => quote s
  | arr [] => "[]"
  | arr (item :: items) =>
    "[" ++ indent (level + 1) ++ render (level + 1) item ++ renderItems (level + 1) items ++
      indent level ++ "]"
  | obj [] => "\x7b\x7d"
  | obj ((key, value) :: entries) =>
    "\x7b" ++ indent (level + 1) ++ quote key ++ ": " ++ render (level + 1) value ++
      renderEntries (level + 1) entries ++ indent level ++ "\x7d"

/-- The items of an array behind the first. -/
def renderItems (level : Nat) : List Json → String
  | [] => ""
  | item :: items => "," ++ indent level ++ render level item ++ renderItems level items

/-- The entries of an object behind the first. -/
def renderEntries (level : Nat) : List (String × Json) → String
  | [] => ""
  | (key, value) :: entries =>
    "," ++ indent level ++ quote key ++ ": " ++ render level value ++ renderEntries level entries

end

/-- The text of a value. -/
def pretty (v : Json) : String :=
  render 0 v

end Json
end LoopLint
