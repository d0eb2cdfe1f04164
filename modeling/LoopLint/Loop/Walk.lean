import LoopLint.Log.Entry
import LoopLint.Loop.Event
import LoopLint.Suppression

/-!
# The loops that are open

While the walk is inside counted loops they form a stack, the innermost first.  A use of a name
concerns the innermost loop with that index; unless it reads an element of the loop's array, the
loop is no longer a candidate.  A loop that is still a candidate when it closes can be written with
`for … of`.
-/

namespace LoopLint

/-- An open loop, and whether every use of its index so far was a read of its array. -/
structure Candidate where
  loop : CountedLoop
  qualifies : Bool
deriving Repr

namespace Candidate

/-- A use of the loop's index. -/
def note (c : Candidate) (n : Node) : Candidate :=
  if n.isPureRead c.loop.array then c else { c with qualifies := false }

/-- A use of a name: it concerns the innermost open loop whose index has that name, if there is one.
-/
def resolve (n : Node) : List Candidate → List Candidate
  | [] => []
  | c :: cs => if c.loop.index = n.text then c.note n :: cs else c :: resolve n cs

/-- The loop, if it is to be reported: a candidate to its end, and not silenced. -/
def finding? (s : Suppression) (c : Candidate) : Option CountedLoop :=
  if c.qualifies && !s.covers c.loop.node.label.start.row then some c.loop else none

end Candidate

/-- Why a walk cannot go on. -/
inductive WalkError where
  | missingBody
  | notOpened
deriving DecidableEq, Repr

/-- What is said of it. -/
def WalkError.text : WalkError → String
  | missingBody => "Found a `for` statement without a body"
  | notOpened => "Closing a `for` loop that was never opened"

/-- How far a walk has come: the open loops, the innermost first, and the loops that were found, in
the order in which they closed. -/
structure Walk where
  opened : List Candidate
  found : List CountedLoop
deriving Repr

namespace Walk

/-- No loop is open, and none was found. -/
def start : Walk := ⟨[], []⟩

/-- One event further. -/
def step (s : Suppression) (w : Walk) : Event → Except WalkError Walk
  | .enter l => .ok { w with opened := ⟨l, true⟩ :: w.opened }
  | .use n => .ok { w with opened := Candidate.resolve n w.opened }
  | .leave =>
    match w.opened with
    | c :: opened => .ok ⟨opened, w.found ++ (c.finding? s).toList⟩
    | [] => .error .notOpened
  | .incomplete => .error .missingBody

/-- All events, one after the other. -/
def run (s : Suppression) (w : Walk) (events : List Event) : Except WalkError Walk :=
  events.foldlM (step s) w

/-- Without events a walk stays where it is. -/
@[simp] theorem run_nil (s : Suppression) (w : Walk) : w.run s [] = .ok w := rfl

/-- A walk over two lists of events is a walk over the first and then one over the second. -/
theorem run_append (s : Suppression) (w : Walk) (es fs : List Event) :
    w.run s (es ++ fs) = (w.run s es).bind (fun w => w.run s fs) := by
  rw [run, List.foldlM_append]
  rfl

/-- What is said about an event: the loop that opens, and the number of loops that are then open. -/
def remarks (w : Walk) : Event → List LogEntry
  | .enter l =>
    let start := l.node.label.start
    [⟨.trace, .loops, s!"Tracking index `{l.index}` of loop at " ++
      s!"{start.row + 1}:{start.column + 1} (depth {w.opened.length + 1})"⟩]
  | _ => []

/-- What is said on the way through some events, up to one that cannot be taken. -/
def log (s : Suppression) (w : Walk) : List Event → List LogEntry
  | [] => []
  | e :: es =>
    w.remarks e ++
      match w.step s e with
      | .ok w => w.log s es
      | .error _ => []

end Walk
end LoopLint
