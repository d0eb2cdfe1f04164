import LoopLint.Proofs.Loop.Recast
import LoopLint.Proofs.Suppression.Renaming
import Mathlib.Logic.Equiv.Basic

/-!
# Names do not matter

The check compares texts in four places: the clauses of a header name one index, a use is looked up
among the open loops, the array of an access is compared word by word with that of the header, and
three words are looked for by themselves: `0`, `1` and `length`.  Nothing else depends on how a name
is spelled, and so a text whose words are renamed one to one, those three apart, has the findings of
the text at the same places (`reportedLoops_renamed`).

There is one condition.  A comment that silences its line silences the next one as well if nothing
but blanks stands before it, and it makes a difference then whether a word before it is blank.  This
is possible: the character `U+0085` is a blank, and names may be made of it
(`check_differs_behind_blank_name`).  So in a text with such a comment a word and its new spelling
have to leave a line blank in the same cases.
-/

namespace LoopLint

variable {ρ : String → String} {n : Node} {l : CountedLoop}

/-- A `for` statement keeps its row. -/
lemma Node.row_respelled (h : n.kind = .forStatement) :
    (n.respelled ρ).label.start.row = n.label.start.row := by
  have hl : n.label.kind = .forStatement := h
  rw [label_respelled, Label.respelled, if_pos hl]

/-- What tells where a loop stands, and what its index and its array are: the address of the loop,
the index as `ρ` spells it, and the address of the array. -/
def CountedLoop.place (ρ : String → String) (l : CountedLoop) : List Nat × String × List Nat :=
  (l.node.address, ρ l.index, l.array.address)

section Respelled

variable (hinj : Set.InjOn ρ {w | w ≠ ""}) (hfixed : ∀ w ∈ ["0", "1", "length"], ρ w = w)

include hinj hfixed

/-- No body is missing without positions exactly if none is with them. -/
lemma Node.Worded.complete_respelled (h : n.Worded) : (n.respelled ρ).Complete ↔ n.Complete :=
  (Recast.respelled ρ hinj hfixed).complete_map h

/-- The findings in the common form of a tree are those in the tree, whatever is silenced. -/
lemma Node.Worded.place_findings_respelled (h : n.Worded) (s : Suppression) :
    ((n.respelled ρ).findings s).map (CountedLoop.place id) =
      (n.findings s).map (CountedLoop.place ρ) := by
  have hfind : (n.respelled ρ).findings .nothing =
      (n.findings .nothing).map (Recast.respelled ρ hinj hfixed).loop :=
    (Recast.respelled ρ hinj hfixed).findings_map h
  rw [findings_eq_filter, hfind, List.filter_map, List.map_map, findings_eq_filter s n]
  have hplace : CountedLoop.place id ∘ (Recast.respelled ρ hinj hfixed).loop =
      CountedLoop.place ρ := by
    funext l
    simp [CountedLoop.place, Recast.loop, Recast.respelled, address_respelled]
  rw [hplace]
  congr 1
  refine List.filter_congr fun l hl => ?_
  -- A finding is a `for` statement, and these keep their rows.
  have hof := (mem_visitedLoops_iff.mp (List.mem_filter.mp hl).1).1
  have hrow := row_respelled (ρ := ρ) (CountedLoop.kind_of_ofNode? hof)
  rw [Function.comp_apply, Recast.loop]
  change (!s.covers (l.node.respelled ρ).label.start.row) = _
  rw [hrow]

end Respelled

/-- How the check of a text compares with that of the renamed text.  Let `ρ` take different words to
different words and leave `0`, `1` and `length` as they are, and let `t` and `t'` be the trees of a
text and of the text with its words renamed by `ρ`, where in both trees each name and each number is
one word.  If a comment of the text silences its line, let each word leave a line blank in the cases
in which its new spelling does.  Then both checks fail for the same reason, or they report loops at
the same places and in the same order: each has the index of its counterpart, renamed, and the array
at the same place. -/
theorem reportedLoops_renamed (ρ : String → String) (hinj : Set.InjOn ρ {w | w ≠ ""})
    (hzero : ρ "0" = "0") (hone : ρ "1" = "1") (hlength : ρ "length" = "length")
    (source source' : String) (t t' : Tree) (hrenamed : Tree.RenamedText ρ source source' t t')
    (hblank : t.HasIgnore → ∀ w ∈ t.tokens, Text.BlankAlike w.toList (ρ w).toList)
    (hword : t.Worded) (hword' : t'.Worded) :
    (checkNode source (Node.ofTree t)).value =
        ((Node.ofTree t).reportedLoops source).map (·.map CountedLoop.diagnostic) ∧
      (checkNode source' (Node.ofTree t')).value =
        ((Node.ofTree t').reportedLoops source').map (·.map CountedLoop.diagnostic) ∧
      ((Node.ofTree t').reportedLoops source').map (·.map (CountedLoop.place id)) =
        ((Node.ofTree t).reportedLoops source).map (·.map (CountedLoop.place ρ)) := by
  refine ⟨checkNode_value_eq_map _ _, checkNode_value_eq_map _ _, ?_⟩
  have hfixed : ∀ w ∈ ["0", "1", "length"], ρ w = w := by
    simp [hzero, hone, hlength]
  have hgood : (Node.ofTree t).Worded := ⟨t, hword, Node.self_mem_preorder _⟩
  have hgood' : (Node.ofTree t').Worded := ⟨t', hword', Node.self_mem_preorder _⟩
  have hinj' : Set.InjOn id {w : String | w ≠ ""} := Set.injOn_id _
  have hfixed' : ∀ w ∈ ["0", "1", "length"], id w = w := fun _ _ => rfl
  -- Both trees have one common form.
  have hcommon : (Node.ofTree t').respelled id = (Node.ofTree t).respelled ρ :=
    congrArg Node.ofTree (hrenamed.tree.respelled_eq hword hword')
  have hcomplete : (Node.ofTree t').Complete ↔ (Node.ofTree t).Complete := by
    rw [← hgood'.complete_respelled hinj' hfixed', hcommon, hgood.complete_respelled hinj hfixed]
  have hsilent : Suppression.ofTree source' (Node.ofTree t').focus =
      Suppression.ofTree source (Node.ofTree t).focus := hrenamed.suppression_eq hblank
  rw [Node.reportedLoops_eq, Node.reportedLoops_eq, hsilent]
  split
  · rfl
  · by_cases hc : (Node.ofTree t).Complete
    · rw [if_pos hc, if_pos (hcomplete.mpr hc)]
      simp only [Except.map]
      rw [← hgood'.place_findings_respelled hinj' hfixed', hcommon,
        hgood.place_findings_respelled hinj hfixed]
    · rw [if_neg hc, if_neg fun h => hc (hcomplete.mp h)]
      rfl

/-! ### Other names for an argument, an index and an array -/

/-- A call whose argument stands before a comment that silences its line, and a loop on the line
behind the comment.  The argument is `x`, the index is `i` and the array is `a`. -/
def namedSource (x i a : String) : String :=
  "f(\n" ++ x ++ " /* forof-ignore */\n); for (let " ++ i ++ " = 0; " ++ i ++ " < " ++ a ++
    ".length; " ++ i ++ "++) " ++ a ++ "[" ++ i ++ "];"

/-- The nodes of `namedSource`, where the names have the given numbers of bytes. -/
def namedEntries (x i a : Nat) : List PreorderEntry :=
  let s := x + 26
  [ ⟨0, "program", "", true, ⟨0, s + 4 * i + 2 * a + 34⟩⟩,
    ⟨1, "expression_statement", "", true, ⟨0, x + 25⟩⟩,
    ⟨2, "call_expression", "", true, ⟨0, x + 24⟩⟩,
    ⟨3, "identifier", "function", true, ⟨0, 1⟩⟩,
    ⟨3, "arguments", "arguments", true, ⟨1, x + 24⟩⟩,
    ⟨4, "(", "", false, ⟨1, 2⟩⟩,
    ⟨4, "identifier", "", true, ⟨3, x + 3⟩⟩,
    ⟨4, "comment", "", true, ⟨x + 4, x + 22⟩⟩,
    ⟨4, ")", "", false, ⟨x + 23, x + 24⟩⟩,
    ⟨2, ";", "", false, ⟨x + 24, x + 25⟩⟩,
    ⟨1, "for_statement", "", true, ⟨s, s + 4 * i + 2 * a + 34⟩⟩,
    ⟨2, "for", "", false, ⟨s, s + 3⟩⟩,
    ⟨2, "(", "", false, ⟨s + 4, s + 5⟩⟩,
    ⟨2, "lexical_declaration", "initializer", true, ⟨s + 5, s + i + 14⟩⟩,
    ⟨3, "let", "kind", false, ⟨s + 5, s + 8⟩⟩,
    ⟨3, "variable_declarator", "", true, ⟨s + 9, s + i + 13⟩⟩,
    ⟨4, "identifier", "name", true, ⟨s + 9, s + i + 9⟩⟩,
    ⟨4, "=", "", false, ⟨s + i + 10, s + i + 11⟩⟩,
    ⟨4, "number", "value", true, ⟨s + i + 12, s + i + 13⟩⟩,
    ⟨3, ";", "", false, ⟨s + i + 13, s + i + 14⟩⟩,
    ⟨2, "binary_expression", "condition", true, ⟨s + i + 15, s + 2 * i + a + 25⟩⟩,
    ⟨3, "identifier", "left", true, ⟨s + i + 15, s + 2 * i + 15⟩⟩,
    ⟨3, "<", "operator", false, ⟨s + 2 * i + 16, s + 2 * i + 17⟩⟩,
    ⟨3, "member_expression", "right", true, ⟨s + 2 * i + 18, s + 2 * i + a + 25⟩⟩,
    ⟨4, "identifier", "object", true, ⟨s + 2 * i + 18, s + 2 * i + a + 18⟩⟩,
    ⟨4, ".", "", false, ⟨s + 2 * i + a + 18, s + 2 * i + a + 19⟩⟩,
    ⟨4, "property_identifier", "property", true, ⟨s + 2 * i + a + 19, s + 2 * i + a + 25⟩⟩,
    ⟨2, ";", "condition", false, ⟨s + 2 * i + a + 25, s + 2 * i + a + 26⟩⟩,
    ⟨2, "update_expression", "increment", true, ⟨s + 2 * i + a + 27, s + 3 * i + a + 29⟩⟩,
    ⟨3, "identifier", "argument", true, ⟨s + 2 * i + a + 27, s + 3 * i + a + 27⟩⟩,
    ⟨3, "++", "operator", false, ⟨s + 3 * i + a + 27, s + 3 * i + a + 29⟩⟩,
    ⟨2, ")", "", false, ⟨s + 3 * i + a + 29, s + 3 * i + a + 30⟩⟩,
    ⟨2, "expression_statement", "body", true, ⟨s + 3 * i + a + 31, s + 4 * i + 2 * a + 34⟩⟩,
    ⟨3, "subscript_expression", "", true, ⟨s + 3 * i + a + 31, s + 4 * i + 2 * a + 33⟩⟩,
    ⟨4, "identifier", "object", true, ⟨s + 3 * i + a + 31, s + 3 * i + 2 * a + 31⟩⟩,
    ⟨4, "[", "", false, ⟨s + 3 * i + 2 * a + 31, s + 3 * i + 2 * a + 32⟩⟩,
    ⟨4, "identifier", "index", true, ⟨s + 3 * i + 2 * a + 32, s + 4 * i + 2 * a + 32⟩⟩,
    ⟨4, "]", "", false, ⟨s + 4 * i + 2 * a + 32, s + 4 * i + 2 * a + 33⟩⟩,
    ⟨3, ";", "", false, ⟨s + 4 * i + 2 * a + 33, s + 4 * i + 2 * a + 34⟩⟩ ]

/-- A text with short names. -/
def shortNamesSource : String := namedSource "x" "i" "a"

/-- The same text with a longer index and a longer array. -/
def longNamesSource : String := namedSource "x" "row" "list"

/-- The same text with an argument that is a blank. -/
def blankNameSource : String := namedSource "\u0085" "i" "a"

/-- The tree of `shortNamesSource`. -/
def shortNamesTree : Tree :=
  (Tree.read? shortNamesSource (namedEntries 1 1 1)).get (by decide +kernel)

/-- The tree of `longNamesSource`. -/
def longNamesTree : Tree :=
  (Tree.read? longNamesSource (namedEntries 1 3 4)).get (by decide +kernel)

/-- The tree of `blankNameSource`. -/
def blankNameTree : Tree :=
  (Tree.read? blankNameSource (namedEntries 2 1 1)).get (by decide +kernel)

/-- The words `i` and `row` exchanged, and `a` and `list`. -/
def longerNames : Equiv.Perm String :=
  (Equiv.swap "i" "row").trans (Equiv.swap "a" "list")

/-- The word `x` and the blank `U+0085` exchanged. -/
def blankName : Equiv.Perm String :=
  Equiv.swap "x" "\u0085"

/-- The checks of the texts with short and with long names agree: the loop is reported in both,
although it stands on the line behind a comment that silences its own. -/
theorem reportedLoops_longNames :
    Set.InjOn longerNames {w | w ≠ ""} ∧ longerNames "0" = "0" ∧ longerNames "1" = "1" ∧
      longerNames "length" = "length" ∧
      Tree.RenamedText longerNames shortNamesSource longNamesSource shortNamesTree longNamesTree ∧
      shortNamesTree.HasIgnore ∧
      (∀ w ∈ shortNamesTree.tokens, Text.BlankAlike w.toList (longerNames w).toList) ∧
      shortNamesTree.Worded ∧ longNamesTree.Worded ∧
      ((checkNode shortNamesSource (Node.ofTree shortNamesTree)).value.map List.length).toOption =
        some 1 ∧
      (checkNode shortNamesSource (Node.ofTree shortNamesTree)).value =
        ((Node.ofTree shortNamesTree).reportedLoops shortNamesSource).map
          (·.map CountedLoop.diagnostic) ∧
      (checkNode longNamesSource (Node.ofTree longNamesTree)).value =
        ((Node.ofTree longNamesTree).reportedLoops longNamesSource).map
          (·.map CountedLoop.diagnostic) ∧
      ((Node.ofTree longNamesTree).reportedLoops longNamesSource).map
          (·.map (CountedLoop.place id)) =
        ((Node.ofTree shortNamesTree).reportedLoops shortNamesSource).map
          (·.map (CountedLoop.place longerNames)) := by
  have hinj : Set.InjOn longerNames {w | w ≠ ""} := longerNames.injective.injOn
  -- All that is decided about the two trees is decided at once, so that they are read only once.
  have hdecided : longerNames "0" = "0" ∧ longerNames "1" = "1" ∧
      longerNames "length" = "length" ∧
      Tree.RenamedText longerNames shortNamesSource longNamesSource shortNamesTree longNamesTree ∧
      shortNamesTree.HasIgnore ∧
      (∀ w ∈ shortNamesTree.tokens, Text.BlankAlike w.toList (longerNames w).toList) ∧
      shortNamesTree.Worded ∧ longNamesTree.Worded ∧
      ((checkNode shortNamesSource (Node.ofTree shortNamesTree)).value.map List.length).toOption =
        some 1 := by
    decide +kernel
  obtain ⟨hzero, hone, hlength, hrenamed, hignore, hblank, hword, hword', hreported⟩ := hdecided
  exact ⟨hinj, hzero, hone, hlength, hrenamed, hignore, hblank, hword, hword', hreported,
    reportedLoops_renamed longerNames hinj hzero hone hlength shortNamesSource longNamesSource
      shortNamesTree longNamesTree hrenamed (fun _ => hblank) hword hword'⟩

/-- A comment behind a name silences its own line only.  If the name is replaced by the blank
`U+0085`, the comment is the first thing on its line and silences the next one as well: the loop
there is reported no longer. -/
theorem check_differs_behind_blank_name :
    Set.InjOn blankName {w | w ≠ ""} ∧ blankName "0" = "0" ∧ blankName "1" = "1" ∧
      blankName "length" = "length" ∧
      Tree.RenamedText blankName shortNamesSource blankNameSource shortNamesTree blankNameTree ∧
      shortNamesTree.Worded ∧ blankNameTree.Worded ∧
      ((checkNode shortNamesSource (Node.ofTree shortNamesTree)).value.map List.length).toOption =
        some 1 ∧
      ((checkNode blankNameSource (Node.ofTree blankNameTree)).value.map List.length).toOption =
        some 0 :=
  ⟨blankName.injective.injOn, by decide +kernel⟩

end LoopLint
