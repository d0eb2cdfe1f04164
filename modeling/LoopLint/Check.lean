import LoopLint.Diagnostic.Basic
import LoopLint.Failure
import LoopLint.Language
import LoopLint.Loop.Walk

/-!
# Checking a source text

The rule: a counted loop whose index is only used to read the elements of its array should be a
`for … of` loop.
-/

namespace LoopLint

/-- A parser gives the syntax tree of a text, or nothing if the text has syntax errors. -/
abbrev Parser := Language → String → Option Tree

/-- The rule's message about a loop over the given array. -/
def preferForOf (array : String) : Message where
  name := "prefer_for_of"
  body := "Expected a for-each loop instead of a counted for loop with this simple iteration."
  suggestion := some ("Use `for (const item of " ++ array ++ ")` instead.")

/-- The diagnostic about a loop.  It covers the header and is placed at the start of the loop; the
file is filled in by `checkText`. -/
def CountedLoop.diagnostic (l : CountedLoop) : Diagnostic where
  message := preferForOf l.array.text
  filename := ⟨""⟩
  range := l.headerRange
  location := some (Location.ofPoint l.node.label.start)

/-- The diagnostics for a node of a syntax tree and what is below it. -/
def checkNode (source : String) (root : Node) : Logged (Except WalkError (List Diagnostic)) :=
  let suppression := Suppression.ofTree source root.focus
  if suppression.wholeFile then
    ⟨.ok [], [⟨.debug, .check, "Skipping file because of a `forof-ignore-file` comment"⟩]⟩
  else
    ⟨(Walk.start.run suppression root.events).map (fun w => w.found.map (·.diagnostic)),
      Walk.start.log suppression root.events⟩

/-- The diagnostics for a source text.  The language is that of the file. -/
def checkText (parse : Parser) (file : Path) (source : String) :
    Logged (Except Cause (List Diagnostic)) :=
  match Language.ofPath? file with
  | none => pure (.error (.unsupportedLanguage file))
  | some language =>
    match parse language source with
    | none => pure (.error (.syntaxErrors file))
    | some tree => do
      match ← checkNode source (Node.ofTree tree) with
      | .error e => pure (.error (.other e.text))
      | .ok found => pure (.ok (found.map (fun d => { d with filename := file })))

end LoopLint
