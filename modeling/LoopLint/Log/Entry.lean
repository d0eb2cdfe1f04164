import LoopLint.Text.Quoted

/-!
# Log entries

What the program says about its work.  Every entry has a level and comes from a part of the program;
the entries are data, and whether they are shown is decided afterwards.

Only the program's own entries are modelled.  The libraries for patterns and for walking through
directories log what they do as well, from the level `debug` on; these entries are left out.
-/

namespace LoopLint

/-- How much an entry matters, from the gravest to the slightest. -/
inductive LogLevel where
  | error
  | warn
  | info
  | debug
  | trace
deriving DecidableEq, Repr

namespace LogLevel

/-- All levels, the gravest first. -/
def all : List LogLevel := [error, warn, info, debug, trace]

/-- The number of graver levels. -/
def rank : LogLevel → Nat
  | error => 0
  | warn => 1
  | info => 2
  | debug => 3
  | trace => 4

/-- The name of the level on the command line. -/
def name : LogLevel → String
  | error => "error"
  | warn => "warn"
  | info => "info"
  | debug => "debug"
  | trace => "trace"

/-- The name of the level in the log. -/
def mark : LogLevel → String
  | error => "ERROR"
  | warn => "WARN"
  | info => "INFO"
  | debug => "DEBUG"
  | trace => "TRACE"

/-- The level with the given name. -/
def ofName? (s : String) : Option LogLevel :=
  all.find? (fun l => l.name == s)

/-- The level that is shown when nothing else is asked for. -/
protected def default : LogLevel := warn

end LogLevel

/-- The part of the program that an entry comes from. -/
inductive LogOrigin where
  | loops
  | check
  | config
  | discovery
  | command
deriving DecidableEq, Repr

/-- The name of the part in a log filter. -/
def LogOrigin.target : LogOrigin → String
  | loops => "forof_core::analyze::for_loop"
  | check => "forof_core::check"
  | config => "forof_core::config"
  | discovery => "forof_core::discovery"
  | command => "forof::commands::check"

/-- A line of the log. -/
structure LogEntry where
  level : LogLevel
  origin : LogOrigin
  message : String
deriving DecidableEq, Repr

namespace LogEntry

/-- A character of a message as it is shown.  Those that could steer a terminal are spelled out. -/
def shownChar (c : Char) : List Char :=
  if c = '\x1b' ∨ c = '\x7f' then ['\\', 'x'] ++ Text.hexDigits c.toNat
  else if c = '\x07' ∨ c = '\x08' ∨ c = '\x0c' then ['\\', 'x', '0'] ++ Text.hexDigits c.toNat
  else if 0x80 ≤ c.toNat ∧ c.toNat ≤ 0x9F then
    ['\\', 'u', '\x7b'] ++ Text.hexDigits c.toNat ++ ['\x7d']
  else [c]

/-- The message as it is shown. -/
def shownMessage (e : LogEntry) : String :=
  String.ofList (e.message.toList.flatMap shownChar)

/-- The entry as a text. -/
def text (e : LogEntry) : String :=
  e.level.mark ++ " " ++ e.shownMessage

end LogEntry

/-- A value and what was logged on the way to it. -/
structure Logged (α : Type) where
  value : α
  log : List LogEntry

namespace Logged

instance : Monad Logged where
  pure a := ⟨a, []⟩
  bind m f := ⟨(f m.value).value, m.log ++ (f m.value).log⟩

/-- Say something. -/
def say (level : LogLevel) (origin : LogOrigin) (message : String) : Logged Unit :=
  ⟨(), [⟨level, origin, message⟩]⟩

/-- A value by itself is the value. -/
@[simp] theorem value_pure {α : Type} (a : α) : (pure a : Logged α).value = a := rfl

/-- A value by itself logs nothing. -/
@[simp] theorem log_pure {α : Type} (a : α) : (pure a : Logged α).log = [] := rfl

/-- The value is that of the last step. -/
@[simp] theorem value_bind {α β : Type} (m : Logged α) (f : α → Logged β) :
    (m >>= f).value = (f m.value).value := rfl

/-- The entries of two steps stand one behind the other. -/
@[simp] theorem log_bind {α β : Type} (m : Logged α) (f : α → Logged β) :
    (m >>= f).log = m.log ++ (f m.value).log := rfl

end Logged
end LoopLint
