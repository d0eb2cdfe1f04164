/-!
# Colours

Coloured text is text between two control sequences: one that switches a colour on, and one that
switches all colours off.
-/

namespace LoopLint

/-- A kind of coloured text. -/
inductive Ink where
  | plain
  /-- The word before an error. -/
  | errorWord
  /-- The word before a warning. -/
  | warningWord
  /-- The text of a warning. -/
  | warningText
  /-- The file of a finding. -/
  | file
  /-- The rule of a finding. -/
  | rule
  /-- The lines and numbers around a snippet. -/
  | gutter
  /-- The marks in a snippet, and what stands beside them. -/
  | mark
  /-- The title of a snippet. -/
  | title
  /-- The word before a suggestion. -/
  | helpWord
deriving DecidableEq, Repr

namespace Ink

/-- The control sequence that switches all colours off. -/
def reset : String := "\x1b[0m"

/-- The control sequence that switches a colour on. -/
def code : Ink → String
  | plain => ""
  | errorWord => "\x1b[1;31m"
  | warningWord => "\x1b[1;33m"
  | warningText => "\x1b[1;37m"
  | file => "\x1b[37m"
  | rule => "\x1b[31m"
  | gutter => "\x1b[1m\x1b[94m"
  | mark => "\x1b[1m\x1b[33m"
  | title => "\x1b[1m"
  | helpWord => "\x1b[1m\x1b[96m"

/-- The characters of a text, with a colour switched on again wherever the text switches it off. -/
def renew (code : List Char) : List Char → List Char
  | '\x1b' :: '[' :: '0' :: 'm' :: cs => reset.toList ++ code ++ renew code cs
  | c :: cs => c :: renew code cs
  | [] => []

/-- A text in a colour, if colours are shown.  The colour is switched on again wherever the text
itself switches it off. -/
def paint (ink : Ink) (color : Bool) (s : String) : String :=
  if color then ink.code ++ String.ofList (renew ink.code.toList s.toList) ++ reset else s

/-- A run of a row in one colour. -/
def run (ink : Ink) (color : Bool) (s : String) : String :=
  if color && ink != plain && s != "" then ink.code ++ s ++ reset else s

end Ink
end LoopLint
