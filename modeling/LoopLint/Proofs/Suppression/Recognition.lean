import LoopLint.Suppression
import Mathlib.Data.List.TakeWhile
import Mathlib.Tactic.Common

/-!
# Which comments are directives

A directive is a comment of one line or a block comment whose first word is the name of the
directive: behind the mark that opens the comment come blanks, then the name, and the name is
followed by a blank or by nothing (`Directive.SpelledBy`).  The linter finds it by cutting the marks
off and taking the first word of what is left.  `Directive.ofComment?_exact` says that this
recognises the directives and nothing else, whatever the comment holds.
-/

namespace LoopLint

namespace Text

/-- A text of blanks only. -/
def AllBlank (s : String) : Prop :=
  ∀ c ∈ s.toList, isBlank c = true

/-- A text that is empty or begins with a blank, so that a word in front of it ends there. -/
def EndsWord (s : String) : Prop :=
  s = "" ∨ ∃ c rest, s.toList = c :: rest ∧ isBlank c = true

/-- What ends a word does not go on with it. -/
lemma EndsWord.takeWhile_eq_nil {s : String} (h : EndsWord s) :
    s.toList.takeWhile (fun c => !isBlank c) = [] := by
  rcases h with rfl | ⟨c, rest, hs, hc⟩
  · rfl
  · rw [hs, List.takeWhile_cons_of_neg (by simp [hc])]

/-- What stands behind the characters that are no blanks is empty or begins with a blank. -/
lemma endsWord_dropWhile (cs : List Char) :
    EndsWord (String.ofList (cs.dropWhile fun c => !isBlank c)) := by
  cases hrest : cs.dropWhile (fun c => !isBlank c) with
  | nil => exact Or.inl rfl
  | cons c rest =>
    have hc := List.head?_dropWhile_not (fun c => !isBlank c) cs
    rw [hrest] at hc
    exact Or.inr ⟨c, rest, String.toList_ofList, by simpa using hc⟩

/-- A word behind blanks is the first word, if it ends where it should. -/
lemma firstWord_append {blanks word rest : String} (hblanks : AllBlank blanks)
    (hword : ∀ c ∈ word.toList, isBlank c = false) (hne : word ≠ "") (hrest : EndsWord rest) :
    firstWord (blanks.toList ++ word.toList ++ rest.toList) = word.toList := by
  obtain ⟨c, cs, hcs⟩ := List.exists_cons_of_ne_nil (mt String.toList_eq_nil_iff.mp hne)
  have hdrop : (blanks.toList ++ word.toList ++ rest.toList).dropWhile isBlank =
      word.toList ++ rest.toList := by
    rw [List.append_assoc, List.dropWhile_append_of_pos hblanks, hcs, List.cons_append,
      List.dropWhile_cons_of_neg]
    rw [hword c (by rw [hcs]; exact List.mem_cons_self)]
    exact Bool.false_ne_true
  rw [firstWord, hdrop, List.takeWhile_append_of_pos (by simpa using hword),
    hrest.takeWhile_eq_nil, List.append_nil]

/-- Every text is blanks, its first word, and something that ends the word. -/
lemma exists_eq_append_firstWord (cs : List Char) :
    ∃ blanks rest : String, AllBlank blanks ∧ EndsWord rest ∧
      cs = blanks.toList ++ firstWord cs ++ rest.toList := by
  refine ⟨String.ofList (cs.takeWhile isBlank),
    String.ofList ((cs.dropWhile isBlank).dropWhile fun c => !isBlank c), ?_,
    endsWord_dropWhile _, ?_⟩
  · intro c hc
    rw [String.toList_ofList] at hc
    exact List.all_eq_true.mp List.all_takeWhile c hc
  · rw [String.toList_ofList, String.toList_ofList, firstWord, List.append_assoc,
      List.takeWhile_append_dropWhile, List.takeWhile_append_dropWhile]

/-- What is left before a text that stands at the end. -/
lemma dropSuffix?_eq_some_iff {cs ds rest : List Char} :
    dropSuffix? cs ds = some rest ↔ cs = rest ++ ds := by
  rw [dropSuffix?, Option.map_eq_some_iff]
  simp only [dropPrefix?_eq_some_iff]
  constructor
  · rintro ⟨back, hback, rfl⟩
    rw [← List.reverse_reverse cs, hback, List.reverse_append, List.reverse_reverse]
  · rintro rfl
    exact ⟨rest.reverse, List.reverse_append, List.reverse_reverse rest⟩

end Text

namespace Directive

variable {d : Directive} {comment : String}

/-- The name of the directive. -/
def word : Directive → String
  | ignore => "forof-ignore"
  | ignoreFile => "forof-ignore-file"

/-- The comment is the directive: its name stands behind the opening mark, with only blanks between
them, and it is a whole word. -/
def SpelledBy (d : Directive) (comment : String) : Prop :=
  ∃ blanks rest : String, Text.AllBlank blanks ∧ Text.EndsWord rest ∧
    (comment = "//" ++ blanks ++ d.word ++ rest ∨
      comment = "/*" ++ blanks ++ d.word ++ rest ++ "*/")

/-- The words of directives hold no blanks. -/
lemma isBlank_of_mem_word {c : Char} (h : c ∈ d.word.toList) : Text.isBlank c = false := by
  have hall : ∀ d : Directive, d.word.toList.all (fun c => !Text.isBlank c) = true := by
    rintro (_ | _) <;> decide +kernel
  simpa using List.all_eq_true.mp (hall d) c h

/-- The words of directives are not empty. -/
lemma word_ne_empty : d.word ≠ "" := by
  cases d <;> decide

/-- A word names a directive if it is the name of the directive. -/
lemma ofWord?_eq_some_iff {w : String} : ofWord? w = some d ↔ w = d.word := by
  unfold ofWord?
  split
  · rename_i h
    subst h
    cases d <;> decide
  · split
    · rename_i h
      subst h
      cases d <;> decide
    · cases d <;> simp_all [word]

/-- The content of a comment is what stands behind `//`, or between `/*` and `*/`.  The two marks of
a block comment share nothing. -/
lemma content?_eq_some_iff {cs content : List Char} :
    content? cs = some content ↔
      cs = ['/', '/'] ++ content ∨ cs = ['/', '*'] ++ content ++ ['*', '/'] := by
  unfold content?
  split
  · rename_i line hline
    rw [Text.dropPrefix?_eq_some_iff] at hline
    subst hline
    simp [eq_comm]
  · rename_i hnone
    have hline : ∀ line, cs ≠ ['/', '/'] ++ line := by
      intro line h
      rw [Text.dropPrefix?_eq_some_iff.mpr h] at hnone
      cases hnone
    rw [Option.bind_eq_some_iff]
    simp only [Text.dropPrefix?_eq_some_iff, Text.dropSuffix?_eq_some_iff,
      or_iff_right (hline content)]
    constructor
    · rintro ⟨block, rfl, rfl⟩
      rw [List.append_assoc]
    · rintro rfl
      exact ⟨content ++ ['*', '/'], List.append_assoc .., rfl⟩

/-- A comment says what its first word says. -/
lemma ofComment?_of_word {blanks w rest : String} (hblanks : Text.AllBlank blanks)
    (hw : ∀ c ∈ w.toList, Text.isBlank c = false) (hne : w ≠ "") (hrest : Text.EndsWord rest)
    (hcomment : comment = "//" ++ blanks ++ w ++ rest ∨
      comment = "/*" ++ blanks ++ w ++ rest ++ "*/") :
    ofComment? comment = ofWord? w := by
  have hcontent : content? comment.toList = some (blanks.toList ++ w.toList ++ rest.toList) := by
    rw [content?_eq_some_iff]
    simpa [← String.toList_inj] using hcomment
  rw [ofComment?, hcontent, Option.bind_some, Text.firstWord_append hblanks hw hne hrest,
    String.ofList_toList]

/-- A comment is a directive if and only if it is spelled as one. -/
lemma ofComment?_eq_some_iff : ofComment? comment = some d ↔ d.SpelledBy comment := by
  constructor
  · intro h
    rw [ofComment?, Option.bind_eq_some_iff] at h
    obtain ⟨content, hcomment, hword⟩ := h
    rw [content?_eq_some_iff] at hcomment
    have hfirst : Text.firstWord content = d.word.toList := by
      rw [← ofWord?_eq_some_iff.mp hword, String.toList_ofList]
    obtain ⟨blanks, rest, hblanks, hrest, hcontent⟩ := Text.exists_eq_append_firstWord content
    rw [hfirst] at hcontent
    refine ⟨blanks, rest, hblanks, hrest, ?_⟩
    simpa [← String.toList_inj, hcontent] using hcomment
  · rintro ⟨blanks, rest, hblanks, hrest, hcomment⟩
    rw [ofComment?_of_word hblanks (fun c => isBlank_of_mem_word) word_ne_empty hrest hcomment,
      ofWord?_eq_some_iff]

/-- A comment is no directive if it spells none. -/
lemma ofComment?_eq_none_iff :
    ofComment? comment = none ↔ ∀ d : Directive, ¬ d.SpelledBy comment := by
  rw [Option.eq_none_iff_forall_ne_some]
  exact forall_congr' fun d => not_congr ofComment?_eq_some_iff

/-- Behind the opening mark of a directive stands a blank or the first character of the name. -/
lemma SpelledBy.exists_third (h : d.SpelledBy comment) :
    ∃ mark c rest, comment.toList = '/' :: mark :: c :: rest ∧
      (Text.isBlank c = true ∨ c = 'f') := by
  obtain ⟨blanks, rest, hblanks, -, hcomment⟩ := h
  obtain ⟨c, cs, hcs, hc⟩ : ∃ c cs, blanks.toList ++ d.word.toList = c :: cs ∧
      (Text.isBlank c = true ∨ c = 'f') := by
    cases hb : blanks.toList with
    | nil => cases d <;> exact ⟨'f', _, rfl, Or.inr rfl⟩
    | cons c cs => exact ⟨c, _, rfl, Or.inl (hblanks c (by rw [hb]; exact List.mem_cons_self))⟩
  rcases hcomment with rfl | rfl
  · refine ⟨'/', c, cs ++ rest.toList, ?_, hc⟩
    simp only [String.toList_append, List.append_assoc "//".toList, hcs]
    rfl
  · refine ⟨'*', c, cs ++ rest.toList ++ ['*', '/'], ?_, hc⟩
    simp only [String.toList_append, List.append_assoc "/*".toList, hcs]
    rfl

/-- Overlapping marks, comments of markup and documentation comments are no directives. -/
lemma ofComment?_of_opening {opening rest : String}
    (h : opening ∈ ["/*/", "<!--", "///", "/**"]) : ofComment? (opening ++ rest) = none := by
  rw [ofComment?_eq_none_iff]
  intro d hd
  obtain ⟨mark, c, cs, hcs, hc⟩ := hd.exists_third
  have hthird : (opening ++ rest).toList[2]? = some c := by
    rw [hcs]
    rfl
  -- The third character of each of these openings is known.
  have hopening : ∀ o ∈ ["/*/", "<!--", "///", "/**"], ∃ c, o.toList[2]? = some c ∧
      Text.isBlank c = false ∧ c ≠ 'f' := by
    simp only [List.forall_mem_cons]
    exact ⟨⟨'/', by decide +kernel⟩, ⟨'-', by decide +kernel⟩, ⟨'/', by decide +kernel⟩,
      ⟨'*', by decide +kernel⟩, nofun⟩
  obtain ⟨e, he, hblank, hf⟩ := hopening opening h
  obtain ⟨hlt, -⟩ := List.getElem?_eq_some_iff.mp he
  rw [String.toList_append, List.getElem?_append_left hlt, he, Option.some_inj] at hthird
  subst hthird
  rcases hc with hc | hc
  · rw [hblank] at hc
    cases hc
  · exact hf hc

/-- The comments that are directives, exactly.  Any text is read as a directive if and only if it is
spelled as that directive, behind `//` or between `/*` and `*/`, and it is spelled as one directive
at most; every other text is none.

So marks that overlap, comments of markup, documentation comments and comments with any other first
word, a longer one for instance, are no directives. -/
theorem ofComment?_exact (comment : String) :
    (∀ d : Directive, ofComment? comment = some d ↔ d.SpelledBy comment) ∧
      (ofComment? comment = none ↔
        ¬ ignore.SpelledBy comment ∧ ¬ ignoreFile.SpelledBy comment) ∧
      ¬ (ignore.SpelledBy comment ∧ ignoreFile.SpelledBy comment) ∧
      (∀ opening ∈ ["/*/", "<!--", "///", "/**"], ∀ rest, comment = opening ++ rest →
        ofComment? comment = none) ∧
      (∀ blanks w rest : String, Text.AllBlank blanks → Text.EndsWord rest →
        (∀ c ∈ w.toList, Text.isBlank c = false) → w ≠ "" → (∀ d : Directive, w ≠ d.word) →
        comment = "//" ++ blanks ++ w ++ rest ∨ comment = "/*" ++ blanks ++ w ++ rest ++ "*/" →
        ofComment? comment = none) := by
  refine ⟨fun d => ofComment?_eq_some_iff, ?_, ?_, ?_, ?_⟩
  · rw [ofComment?_eq_none_iff]
    constructor
    · intro h
      exact ⟨h ignore, h ignoreFile⟩
    · rintro ⟨hignore, hfile⟩ (_ | _)
      · exact hignore
      · exact hfile
  · rintro ⟨hignore, hfile⟩
    rw [← ofComment?_eq_some_iff] at hignore hfile
    rw [hignore] at hfile
    cases hfile
  · rintro opening hopening rest rfl
    exact ofComment?_of_opening hopening
  · intro blanks w rest hblanks hrest hw hne hother hcomment
    rw [ofComment?_of_word hblanks hw hne hrest hcomment, Option.eq_none_iff_forall_ne_some]
    exact fun d hd => hother d (ofWord?_eq_some_iff.mp hd)

example : ofComment? "/*\u00a0forof-ignore-file\u2003(generated)*/" = some ignoreFile := by
  decide +kernel

example : ofComment? "// forof-ignored" = none := by decide +kernel

end Directive
end LoopLint
