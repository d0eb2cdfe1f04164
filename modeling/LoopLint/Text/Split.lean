/-!
# Splitting texts
-/

namespace LoopLint.Text

/-- The parts of a text between the occurrences of a separator.  There is always at least one. -/
def splitOn (sep : Char) : List Char → List (List Char)
  | [] => [[]]
  | c :: cs =>
    if c = sep then [] :: splitOn sep cs
    else match splitOn sep cs with
      | [] => [[c]]
      | part :: parts => (c :: part) :: parts

/-- The first text without the second at its start. -/
def dropPrefix? : List Char → List Char → Option (List Char)
  | cs, [] => some cs
  | [], _ :: _ => none
  | c :: cs, d :: ds => if c = d then dropPrefix? cs ds else none

/-- The first text without the second at its end. -/
def dropSuffix? (cs ds : List Char) : Option (List Char) :=
  (dropPrefix? cs.reverse ds.reverse).map List.reverse

/-- Even an empty text has a part. -/
theorem splitOn_ne_nil (sep : Char) (cs : List Char) : splitOn sep cs ≠ [] := by
  cases cs with
  | nil => exact List.cons_ne_nil _ _
  | cons c cs =>
    rw [splitOn]
    by_cases hc : c = sep
    · rw [if_pos hc]
      exact List.cons_ne_nil _ _
    · rw [if_neg hc]
      cases splitOn sep cs <;> exact List.cons_ne_nil _ _

/-- What is left behind a text that stands at the start. -/
theorem dropPrefix?_eq_some_iff {cs ds rest : List Char} :
    dropPrefix? cs ds = some rest ↔ cs = ds ++ rest := by
  induction ds generalizing cs with
  | nil => cases cs <;> simp [dropPrefix?]
  | cons d ds ih =>
    cases cs with
    | nil => simp [dropPrefix?]
    | cons c cs => by_cases h : c = d <;> simp [dropPrefix?, h, ih]

end LoopLint.Text
