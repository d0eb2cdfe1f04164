/-!
# Blank characters

The characters that separate words: those with the `White_Space` property of Unicode.  The module
also holds the two questions the linter asks about blanks: whether a text is nothing but blanks, and
what its first word is.
-/

namespace LoopLint.Text

/-- The code points with the property `White_Space`. -/
def isBlank (c : Char) : Bool :=
  let n := c.toNat
  (0x09 ≤ n && n ≤ 0x0D) || n == 0x20 || n == 0x85 || n == 0xA0 || n == 0x1680 ||
    (0x2000 ≤ n && n ≤ 0x200A) || n == 0x2028 || n == 0x2029 || n == 0x202F || n == 0x205F ||
    n == 0x3000

/-- The characters up to the first blank, once the leading blanks are dropped. -/
def firstWord (cs : List Char) : List Char :=
  (cs.dropWhile isBlank).takeWhile (fun c => !isBlank c)

/-- The text without the blanks at its end. -/
def dropTrailingBlanks (cs : List Char) : List Char :=
  (cs.reverse.dropWhile isBlank).reverse

end LoopLint.Text
