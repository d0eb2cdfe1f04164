import LoopLint.Text.Extender
import LoopLint.Text.Unseen

/-!
# Quoted texts

The form in which a text is shown inside a message: between double quotes, on one line, with escapes
for quotes, backslashes and the characters that cannot be seen.
-/

namespace LoopLint.Text

/-- The digits of a number in base sixteen, in lower case. -/
def hexDigits (n : Nat) : List Char :=
  Nat.toDigits 16 n

/-- The characters that cannot be seen, or not on their own. -/
def isHidden (c : Char) : Bool :=
  isUnseen c || isExtender c

/-- A character inside quotes. -/
def escapeChar (c : Char) : List Char :=
  if c = '"' then ['\\', '"']
  else if c = '\\' then ['\\', '\\']
  else if c = '\n' then ['\\', 'n']
  else if c = '\r' then ['\\', 'r']
  else if c = '\t' then ['\\', 't']
  else if c = '\x00' then ['\\', '0']
  else if isHidden c then ['\\', 'u', '\x7b'] ++ hexDigits c.toNat ++ ['\x7d']
  else [c]

/-- A text between quotes. -/
def quoted (s : String) : String :=
  String.ofList ('"' :: s.toList.flatMap escapeChar ++ ['"'])

end LoopLint.Text
