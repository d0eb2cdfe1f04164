import LoopLint.Log.Directive

/-!
# Log filters

A filter is a list of directives.  For each part of the program the directive that describes it most
closely counts, and of several that do so equally the last one.
-/

namespace LoopLint

/-- A list of directives. -/
structure LogFilter where
  directives : List LogDirective
deriving DecidableEq, Repr

namespace LogFilter

/-- The filter for a single level. -/
def ofLevel (l : LogLevel) : LogFilter := ⟨[.ofLimit (.upTo l)]⟩

/-- The filter that a text stands for.  Commas divide its directives; without any, only errors pass.
-/
def parse? (s : String) : Option LogFilter :=
  let parts := (Text.splitOn ',' s.toList).filter (fun p => !p.isEmpty)
  if parts.isEmpty then some (ofLevel .error)
  else (parts.mapM LogDirective.parse?).map (⟨·⟩)

/-- The directive that counts for a part: of those that cover it the closest one, and of several
equally close ones the last. -/
def directive? (f : LogFilter) (part : String) : Option LogDirective :=
  (f.directives.filter (·.covers part)).foldl (fun best d =>
    match best with
    | none => some d
    | some b => if d.outweighs b then some d else best) none

/-- Whether an entry passes. -/
def allows (f : LogFilter) (e : LogEntry) : Bool :=
  match f.directive? e.origin.target with
  | some d => d.limit.allows e.level
  | none => false

end LogFilter

/-- The colour of a level. -/
def LogLevel.colorCode : LogLevel → String
  | error => "\x1b[31m"
  | warn => "\x1b[33m"
  | info => "\x1b[32m"
  | debug => "\x1b[34m"
  | trace => "\x1b[35m"

/-- The line of an entry.  All levels take five columns. -/
def LogEntry.line (color : Bool) (e : LogEntry) : String :=
  let mark := e.level.mark
  let padded := (if mark.length < 5 then " " else "") ++ mark
  let shown := if color then e.level.colorCode ++ padded ++ "\x1b[0m" else padded
  shown ++ " " ++ e.shownMessage ++ "\n"

end LoopLint
