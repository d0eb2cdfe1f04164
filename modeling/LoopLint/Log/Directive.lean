import LoopLint.Log.Entry
import LoopLint.Text.Alphanumeric
import LoopLint.Text.Blank
import LoopLint.Text.Offset
import LoopLint.Text.Split

/-!
# Log directives

A directive sets the level for a part of the log.  In full it reads
`target[span{field=value}]=level`, and most of it may be left out: a level alone is for all entries,
and a target alone lets all entries of the parts through whose names start with it.

An entry of this program stands in no span, and its only field is its message.  A directive that
asks for a span or for the value of a field is therefore read, but no entry meets it.

Blanks around a directive are skipped when its pieces are told apart, but the pieces are then cut
out of the text with the blanks, at the same offsets.  So a blank at the end belongs to the last
piece, and blanks at the start move all pieces.
-/

namespace LoopLint

/-- What a filter lets through: nothing, or a level and all graver ones. -/
inductive LevelLimit where
  | off
  | upTo (l : LogLevel)
deriving DecidableEq, Repr

namespace LevelLimit

/-- Whether a level passes. -/
def allows : LevelLimit → LogLevel → Bool
  | off, _ => false
  | upTo l, level => level.rank ≤ l.rank

/-- The limits by number, from zero on. -/
def all : List LevelLimit :=
  off :: LogLevel.all.map upTo

/-- The number that some digits stand for, with or without a plus sign. -/
def number? (cs : List Char) : Option Nat :=
  let digits := (Text.dropPrefix? cs ['+']).getD cs
  if !digits.isEmpty && digits.all Char.isDigit then
    some (digits.foldl (fun n d => 10 * n + (d.toNat - '0'.toNat)) 0)
  else none

/-- The limit with the given number, or with the given name in upper or lower case. -/
def ofName? (s : String) : Option LevelLimit :=
  match number? s.toList with
  | some n => all[n]?
  | none =>
    let lower := String.ofList (s.toList.map Char.toLower)
    if lower = "off" then some off else (LogLevel.ofName? lower).map upTo

end LevelLimit

/-- What a directive asks of a field of an entry: that it is there, or that it has a value. -/
structure LogField where
  name : String
  value : Option String
deriving DecidableEq, Repr

namespace LogField

/-- The field that a text stands for: a name, or a name and a value with an equals sign between
them.  From a second equals sign on the text is passed over. -/
def ofText (s : String) : LogField :=
  match Text.splitOn '=' s.toList with
  | name :: value :: _ => ⟨String.ofList name, some (String.ofList value)⟩
  | _ => ⟨s, none⟩

/-- Whether the entries of this program have the field: they have a message, of no known value. -/
def isMet (f : LogField) : Bool :=
  f.name == "message" && f.value.isNone

end LogField

/-- The level for a part of the log. -/
structure LogDirective where
  target : Option String
  span : Option String
  fields : List LogField
  limit : LevelLimit
deriving DecidableEq, Repr

namespace LogDirective

/-- The directive that lets a level pass everywhere. -/
def ofLimit (limit : LevelLimit) : LogDirective := ⟨none, none, [], limit⟩

/-! ### Reading -/

/-- Which piece of a directive is being read, and at which offset it starts. -/
inductive Stage where
  | start
  | word (first : Nat)
  | span (first : Nat)
  | field (first : Nat)
  | fieldsRead
  | bracketClosed
  | level (first : Nat)
deriving DecidableEq, Repr

/-- A directive on the way: the pieces read so far, and the one being read. -/
structure Reading where
  stage : Stage
  directive : LogDirective
deriving DecidableEq, Repr

/-- Whether a directive may start with a character other than a bracket. -/
def mayStart (c : Char) : Bool :=
  Text.isAlphanumeric c || c == '-' || c == ':' || c == '_'

namespace Reading

/-- The pieces are cut out of the text of the directive. -/
def cut (whole : List Char) (first stop : Nat) : String :=
  String.ofList (Text.slice whole ⟨first, stop⟩)

/-- One character further, the character being at the given offset. -/
def step (whole : List Char) (r : Reading) (offset : Nat) (c : Char) : Option Reading :=
  let d := r.directive
  match r.stage with
  | .start =>
    if c = '[' then some ⟨.span (offset + 1), d⟩
    else if mayStart c then some ⟨.word offset, d⟩
    else none
  | .word first =>
    if c = '=' then some ⟨.level (offset + 1), { d with target := some (cut whole first offset) }⟩
    else if c = '[' then
      some ⟨.span (offset + 1), { d with target := some (cut whole first offset) }⟩
    else some r
  | .span first =>
    let name := cut whole first offset
    if c = ']' then some ⟨.bracketClosed, { d with span := some name }⟩
    else if c = '\x7b' then
      some ⟨.field (offset + 1), { d with span := if name = "" then none else some name }⟩
    else some r
  | .field first =>
    let text := cut whole first offset
    if c = '\x7d' then
      if text = "" then none
      else some ⟨.fieldsRead, { d with fields := d.fields ++ [LogField.ofText text] }⟩
    else some r
  | .fieldsRead => if c = ']' then some ⟨.bracketClosed, d⟩ else none
  | .bracketClosed => if c = '=' then some ⟨.level (offset + 1), d⟩ else none
  | .level _ => some r

/-- All characters from an offset on. -/
def run (whole : List Char) (r : Reading) (offset : Nat) : List Char → Option Reading
  | [] => some r
  | c :: cs => (r.step whole offset c).bind (fun r => run whole r (offset + c.utf8Size) cs)

/-- The directive, once all characters are read. -/
def finish? (whole : List Char) (r : Reading) : Option LogDirective :=
  let rest (first : Nat) : String := String.ofList (Text.dropBytes first whole)
  match r.stage with
  | .word first =>
    match LevelLimit.ofName? (rest first) with
    | some limit => some { r.directive with limit }
    | none => some { r.directive with target := some (rest first) }
  | .level first =>
    if rest first = "" then some r.directive
    else (LevelLimit.ofName? (rest first)).map (fun limit => { r.directive with limit })
  | .bracketClosed => some r.directive
  | _ => none

end Reading

/-- The directive that a text stands for.  If it names no level, all levels pass. -/
def parse? (s : List Char) : Option LogDirective :=
  let trimmed := Text.dropTrailingBlanks (s.dropWhile Text.isBlank)
  (Reading.run s ⟨.start, ofLimit (.upTo .trace)⟩ 0 trimmed).bind (Reading.finish? s)

/-! ### Meaning -/

/-- Whether the directive is for the entries of a part. -/
def covers (d : LogDirective) (part : String) : Bool :=
  d.span.isNone && d.fields.all LogField.isMet &&
    match d.target with
    | none => true
    | some t => (Text.dropPrefix? part.toList t.toList).isSome

/-- How closely a directive describes its part: by the length of its target, then by the number of
its fields. -/
def weight (d : LogDirective) : Nat × Nat :=
  (match d.target with
    | none => 0
    | some t => t.utf8ByteSize + 1, d.fields.length)

/-- Whether a directive is described as closely as another one, or more closely. -/
def outweighs (d other : LogDirective) : Bool :=
  other.weight.1 < d.weight.1 || (other.weight.1 == d.weight.1 && other.weight.2 ≤ d.weight.2)

end LogDirective
end LoopLint
