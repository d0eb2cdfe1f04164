import LoopLint.Command.Program
import LoopLint.Environment.Snapshot

/-!
# The command line

The arguments are those of the program; the world that it runs in is read from the standard input,
one line that holds a snapshot.
-/

namespace LoopLint

/-- Whether the time that a check takes is to be shown. -/
def showsTime (args : List String) : Bool :=
  match Invocation.parse args with
  | .ok i => i.check.withTiming
  | .error _ => false

/-- The milliseconds that a computation takes. -/
def millisecondsOf {α : Type} (compute : Unit → α) : IO Nat := do
  let start ← IO.monoMsNow
  let _ ← IO.lazyPure compute
  return (← IO.monoMsNow) - start

end LoopLint

open LoopLint in
/-- Reads the snapshot, runs the program and prints what it says.  If the time is to be shown, it is
that of a run before the one whose output is printed. -/
def main (args : List String) : IO UInt32 := do
  let line ← (← IO.getStdin).getLine
  let snapshot := Snapshot.ofJson ((Json.parse? line).getD .null)
  let run (elapsed : String) : ProgramResult :=
    runProgram snapshot.environment (KnownText.parser snapshot.known) elapsed args
  let elapsed ← if showsTime args then millisecondsOf (fun _ => run "") else pure 0
  let result := run (toString elapsed ++ "ms")
  IO.print result.output
  IO.eprint result.errors
  return result.code.toUInt32
