import LoopLint.Proofs.Report.Caches
import LoopLint.Proofs.Report.Lines

/-!
# What the summary says

Two of the reports end with a summary: how many findings there are, or that all is well.  A summary
`TellsTruth` if the number is that of the findings that are shown, if nothing was left out where a
number is given, and if all is said to be well only where there is neither a finding nor a failure.

The two reports leave out different findings and count different things.  The concise report leaves
out findings without a place and counts them nevertheless; the report with source lines leaves out
findings in files that cannot be read, and does not count them.  So the first one can count findings
that it does not show, and the second one can say that all is well although something was found
(`passed_although_found`).  `summary_tells_truth_iff` says when this happens.  The findings of a
check have a place in a file that can be read, so on them both reports tell the truth as long as the
files stay as they are.
-/

namespace LoopLint.Report

/-! ### The lines of a summary -/

/-- The lines of a text.  Behind a line break that comes last there is one more, which is empty. -/
def linesOf (s : String) : List String :=
  (Text.splitOn '\n' s.toList).map String.ofList

/-- The line that gives the number of findings. -/
def foundLine (n : Nat) : String := "Found " ++ countText n

/-- The line that says that all is well. -/
def passedLine : String := "All checks passed!"

/-- A text without line breaks is the first line of what it starts. -/
lemma linesOf_line_append {s : String} (h : Text.breaks s = 0) (rest : String) :
    linesOf (line s ++ rest) = s :: linesOf rest := by
  have hbreak : '\n' ∉ s.toList := List.count_eq_zero.mp h
  have htext : (line s ++ rest).toList = s.toList ++ '\n' :: rest.toList := by
    simp [line, String.toList_append]
  rw [linesOf, htext, Text.splitOn_append hbreak, List.map_cons, String.ofList_toList, linesOf]

/-- A text with a line break behind it is one line, and nothing follows. -/
lemma linesOf_line {s : String} (h : Text.breaks s = 0) : linesOf (line s) = [s, ""] := by
  have hlines := linesOf_line_append h ""
  rw [String.append_empty] at hlines
  rw [hlines]
  rfl

/-- The number of findings is told on one line. -/
lemma breaks_foundLine (n : Nat) : Text.breaks (foundLine n) = 0 := by
  have hfound : Text.breaks "Found " = 0 := by decide
  rw [foundLine, Text.breaks_append, hfound, breaks_countText]

/-- The number that a line gives behind its first word. -/
def countIn (s : String) : Nat :=
  Nat.ofDigitChars 10 ((s.toList.drop 6).takeWhile Char.isDigit) 0

/-- The number of findings can be read off the line. -/
lemma countIn_foundLine (n : Nat) : countIn (foundLine n) = n := by
  obtain ⟨rest, hrest⟩ :
      ∃ rest, (foundLine n).toList.drop 6 = Nat.toDigits 10 n ++ ' ' :: rest := by
    unfold foundLine countText
    split <;> simp [String.toList_append]
  have hall : ∀ c ∈ Nat.toDigits 10 n, c.isDigit = true :=
    fun c hc => Nat.isDigit_of_mem_toDigits (by decide) (by decide) hc
  rw [countIn, hrest, List.takeWhile_append_of_pos hall, List.takeWhile_cons_of_neg (by decide),
    List.append_nil, Nat.ofDigitChars_ten_toDigits]

/-- The line tells the number of findings. -/
lemma foundLine_inj {m n : Nat} : foundLine m = foundLine n ↔ m = n := by
  constructor
  · intro h
    rw [← countIn_foundLine m, h, countIn_foundLine]
  · rintro rfl
    rfl

/-- The line on findings starts with `F`. -/
lemma head?_foundLine (n : Nat) : (foundLine n).toList.head? = some 'F' := by
  simp [foundLine, String.toList_append]

/-- The line on findings is not empty. -/
lemma foundLine_ne_empty (n : Nat) : foundLine n ≠ "" := by
  intro h
  have hhead := head?_foundLine n
  rw [h] at hhead
  cases hhead

/-- The line on findings is not the one that says that all is well. -/
lemma foundLine_ne_passedLine (n : Nat) : foundLine n ≠ passedLine := by
  intro h
  have hhead := head?_foundLine n
  rw [h] at hhead
  exact absurd hhead (by decide)

/-- The lines of a summary. -/
lemma linesOf_summary (count : Nat) (failures : List (String × Failure)) :
    linesOf (summary count failures) =
      if 0 < count then [foundLine count, ""]
      else if failures = [] then [passedLine, ""] else [""] := by
  by_cases hcount : 0 < count
  · rw [summary_of_pos hcount, ← foundLine, linesOf_line (breaks_foundLine count), if_pos hcount]
  · have hzero : count = 0 := by omega
    subst hzero
    cases failures with
    | nil => decide
    | cons e failures => rfl

/-- A summary tells the number of findings exactly if there are any. -/
lemma foundLine_mem_summary_iff (n count : Nat) (failures : List (String × Failure)) :
    foundLine n ∈ linesOf (summary count failures) ↔ n = count ∧ 0 < count := by
  have hempty := foundLine_ne_empty n
  have hpassed := foundLine_ne_passedLine n
  rw [linesOf_summary]
  by_cases hcount : 0 < count
  · simp [hcount, foundLine_inj, hempty]
  · by_cases hfailures : failures = [] <;> simp [hcount, hfailures, hempty, hpassed]

/-- A summary says that all is well exactly if there are neither findings nor failures. -/
lemma passedLine_mem_summary_iff (count : Nat) (failures : List (String × Failure)) :
    passedLine ∈ linesOf (summary count failures) ↔ count = 0 ∧ failures = [] := by
  have hempty : passedLine ≠ "" := by decide
  have hfound := (foundLine_ne_passedLine count).symm
  rw [linesOf_summary]
  by_cases hcount : 0 < count
  · simp [hcount, hempty, hfound, Nat.ne_of_gt hcount]
  · have hzero : count = 0 := by omega
    by_cases hfailures : failures = [] <;> simp [hzero, hfailures, hempty]

/-! ### Reports with a summary -/

/-- A report on some findings that shows those with a piece of `w`, and that gives `count` in its
summary. -/
structure Summarizes (r : Report) (w : Writer) (name : Path → String) (ds : List Diagnostic)
    (count : Nat) (failures : List (String × Failure)) : Prop where
  /-- The shown findings are written in their order, and nothing else is. -/
  written : r.written = String.join ((w.shown ds).map (w.piece name))
  /-- Every shown finding can be seen. -/
  piece_ne_empty : ∀ d ∈ w.shown ds, w.piece name d ≠ ""
  found_iff : ∀ n, foundLine n ∈ linesOf r.printed ↔ n = count ∧ 0 < count
  passed_iff : passedLine ∈ linesOf r.printed ↔ count = 0 ∧ failures = []

/-- What the report prints behind the findings is true: a number is that of the shown findings, and
none is left out then; where findings are shown, their number is given; and that all is well is said
only if nothing was found and nothing failed. -/
structure TellsTruth (r : Report) (shown ds : List Diagnostic)
    (failures : List (String × Failure)) : Prop where
  found : ∀ n, foundLine n ∈ linesOf r.printed → n = shown.length ∧ (0 < n → n = ds.length)
  counted : shown ≠ [] → foundLine shown.length ∈ linesOf r.printed
  passed : passedLine ∈ linesOf r.printed → ds = [] ∧ failures = []

section Truth

variable {r : Report} {w : Writer} {name : Path → String} {ds : List Diagnostic} {count : Nat}
  {failures : List (String × Failure)}

/-- When a summary is true, in terms of what it counts. -/
lemma Summarizes.tellsTruth_iff (h : Summarizes r w name ds count failures) :
    TellsTruth r (w.shown ds) ds failures ↔
      (0 < count → count = (w.shown ds).length ∧ count = ds.length) ∧
        (w.shown ds ≠ [] → count = (w.shown ds).length) ∧
        (count = 0 → failures = [] → ds = []) := by
  constructor
  · rintro ⟨hfound, hcounted, hpassed⟩
    refine ⟨?_, ?_, ?_⟩
    · intro hpos
      obtain ⟨hshown, hall⟩ := hfound count ((h.found_iff count).mpr ⟨rfl, hpos⟩)
      exact ⟨hshown, hall hpos⟩
    · intro hne
      exact ((h.found_iff _).mp (hcounted hne)).1.symm
    · intro hzero hnone
      exact (hpassed (h.passed_iff.mpr ⟨hzero, hnone⟩)).1
  · rintro ⟨hcount, hshown, hpassed⟩
    refine ⟨?_, ?_, ?_⟩
    · intro n hn
      obtain ⟨rfl, hpos⟩ := (h.found_iff n).mp hn
      exact ⟨(hcount hpos).1, fun _ => (hcount hpos).2⟩
    · intro hne
      have hlength : 0 < (w.shown ds).length := List.length_pos_iff.mpr hne
      exact (h.found_iff _).mpr ⟨(hshown hne).symm, by rwa [hshown hne]⟩
    · intro hline
      obtain ⟨hzero, hnone⟩ := h.passed_iff.mp hline
      exact ⟨hpassed hzero hnone, hnone⟩

/-- No more findings are shown than there are. -/
lemma Writer.length_shown_le (w : Writer) (ds : List Diagnostic) :
    (w.shown ds).length ≤ ds.length :=
  List.length_filter_le _ ds

/-- All findings are shown if none is left out. -/
lemma Writer.length_shown_eq_iff (w : Writer) (ds : List Diagnostic) :
    (w.shown ds).length = ds.length ↔ ∀ d ∈ ds, (w d).isSome = true :=
  List.length_filter_eq_length_iff

/-- Nothing is shown if every finding is passed over. -/
lemma Writer.shown_eq_nil_iff (w : Writer) (ds : List Diagnostic) :
    w.shown ds = [] ↔ ∀ d ∈ ds, w d = none := by
  simp [shown, List.filter_eq_nil_iff]

end Truth

/-! ### The concise report -/

section Concise

variable (env : Environment) (color : Bool) (ds : List Diagnostic)
  (failures : List (String × Failure))

/-- The concise format shows the findings that have a location. -/
lemma isSome_conciseWriter (d : Diagnostic) : (conciseWriter color d).isSome = d.location.isSome :=
  Option.isSome_map

/-- A blank line before the summary is no line of the summary. -/
lemma mem_linesOf_printed_concise {s : String} (hs : s ≠ "") :
    s ∈ linesOf (concise env color ds failures).printed ↔
      s ∈ linesOf (summary ds.length failures) := by
  have hblank : linesOf ("\n" ++ summary ds.length failures) =
      "" :: linesOf (summary ds.length failures) := linesOf_line_append (s := "") rfl _
  rw [concise]
  by_cases hempty : ds.isEmpty
  · simp only [hempty, if_true, String.empty_append]
  · simp only [hempty, Bool.false_eq_true, if_false, hblank, List.mem_cons, hs, false_or]

/-- The concise report shows the findings with a place and counts all of them. -/
theorem summarizes_concise :
    Summarizes (concise env color ds failures) (conciseWriter color)
      (fileName env ((conciseWriter color).files ds)) ds ds.length failures where
  written := by
    rw [written_concise_eq_text, ← Writer.text_shown, Writer.text]
  piece_ne_empty := by
    intro d hd
    have hplaced : d.location.isSome = true := by
      rw [← isSome_conciseWriter color]
      exact (List.mem_filter.mp hd).2
    obtain ⟨place, hplace⟩ := Option.isSome_iff_exists.mp hplaced
    rw [piece_conciseWriter, conciseLine, hplace]
    simp [line]
  found_iff := by
    intro n
    rw [mem_linesOf_printed_concise env color ds failures (foundLine_ne_empty n),
      foundLine_mem_summary_iff]
  passed_iff := by
    rw [mem_linesOf_printed_concise env color ds failures (by decide), passedLine_mem_summary_iff]

/-- The concise report tells the truth exactly if every finding has a place. -/
lemma tellsTruth_concise_iff :
    TellsTruth (concise env color ds failures) ((conciseWriter color).shown ds) ds failures ↔
      ∀ d ∈ ds, d.location.isSome = true := by
  have hshown := (conciseWriter color).length_shown_eq_iff ds
  simp only [isSome_conciseWriter] at hshown
  have hle := (conciseWriter color).length_shown_le ds
  rw [(summarizes_concise env color ds failures).tellsTruth_iff, ← hshown]
  constructor
  · rintro ⟨hcount, -, -⟩
    by_cases hpos : 0 < ds.length
    · exact (hcount hpos).1.symm
    · omega
  · intro hlength
    refine ⟨fun _ => ⟨hlength.symm, rfl⟩, fun _ => hlength.symm, ?_⟩
    intro hzero _
    exact List.length_eq_zero_iff.mp hzero

end Concise

/-! ### The report with source lines -/

/-- The file of the finding can be read, under the spelling of some finding. -/
def IsReadable (env : Environment) (ds : List Diagnostic) (d : Diagnostic) : Prop :=
  ∃ e ∈ ds, d.filename.same e.filename = true ∧ ∃ s, env.readText e.filename = .ok s

section Full

variable (env : Environment) (color : Bool) (ds : List Diagnostic)
  (failures : List (String × Failure))

/-- The full format shows the findings whose file can be read. -/
lemma isSome_sourceWriter_iff (d : Diagnostic) :
    (sourceWriter env color ds d).isSome = true ↔ IsReadable env ds d := by
  rw [sourceWriter, fullWriter, Option.isSome_map, source?, List.findSome?_isSome_iff]
  constructor
  · rintro ⟨q, hq, hread⟩
    obtain ⟨hmem, hsame⟩ := List.mem_filter.mp hq
    obtain ⟨e, he, rfl⟩ := List.mem_map.mp hmem
    obtain ⟨s, hs⟩ := Option.isSome_iff_exists.mp hread
    exact ⟨e, he, hsame, s, eq_ok_of_toOption hs⟩
  · rintro ⟨e, he, hsame, s, hs⟩
    refine ⟨e.filename, List.mem_filter.mpr ⟨List.mem_map_of_mem he, hsame⟩, ?_⟩
    rw [hs]
    rfl

/-- The full format prints its summary behind the findings, with the number of those that are shown.
-/
lemma printed_full :
    (full env color ds failures).printed =
      summary ((sourceWriter env color ds).shown ds).length failures := by
  have hfiles : (ds.filterMap fun d => (source? env (ds.map (·.filename)) d.filename).map
      fun s => (d, s)).map (·.1.filename) = (sourceWriter env color ds).files ds :=
    map_filename_filterMap ds
  have hlength := congrArg List.length hfiles
  rw [List.length_map, Writer.files, List.length_map] at hlength
  rw [← hlength]
  rfl

/-- The report with source lines shows the findings in files that can be read, and counts these. -/
theorem summarizes_full :
    Summarizes (full env color ds failures) (sourceWriter env color ds)
      (fileName env ((sourceWriter env color ds).files ds)) ds
      ((sourceWriter env color ds).shown ds).length failures where
  written := by
    rw [written_full_eq_text, ← Writer.text_shown, Writer.text]
  piece_ne_empty := by
    intro d hd
    obtain ⟨write, hwrite⟩ := Option.isSome_iff_exists.mp (List.mem_filter.mp hd).2
    rw [Writer.piece_of_some _ hwrite]
    rw [sourceWriter, fullWriter, Option.map_eq_some_iff] at hwrite
    obtain ⟨s, -, rfl⟩ := hwrite
    simp [snippet]
  found_iff := by
    intro n
    rw [printed_full, foundLine_mem_summary_iff]
  passed_iff := by
    rw [printed_full, passedLine_mem_summary_iff]

/-- The report with source lines tells the truth exactly if all files of findings can be read, or
none of them and some file could not be checked: then it says nothing. -/
lemma tellsTruth_full_iff :
    TellsTruth (full env color ds failures) ((sourceWriter env color ds).shown ds) ds failures ↔
      (∀ d ∈ ds, IsReadable env ds d) ∨ (∀ d ∈ ds, ¬IsReadable env ds d) ∧ failures ≠ [] := by
  have hall : (∀ d ∈ ds, IsReadable env ds d) ↔
      ((sourceWriter env color ds).shown ds).length = ds.length := by
    rw [Writer.length_shown_eq_iff]
    simp only [isSome_sourceWriter_iff]
  have hnone : (∀ d ∈ ds, ¬IsReadable env ds d) ↔ (sourceWriter env color ds).shown ds = [] := by
    rw [Writer.shown_eq_nil_iff]
    simp only [← isSome_sourceWriter_iff env color ds, Bool.not_eq_true, Option.isSome_eq_false_iff,
      Option.isNone_iff_eq_none]
  rw [(summarizes_full env color ds failures).tellsTruth_iff, hall, hnone]
  by_cases hshown : (sourceWriter env color ds).shown ds = []
  · -- nothing is shown, so nothing is counted
    rw [hshown, List.length_nil]
    constructor
    · rintro ⟨-, -, hpassed⟩
      by_cases hfailures : failures = []
      · exact .inl (by rw [hpassed rfl hfailures, List.length_nil])
      · exact .inr ⟨rfl, hfailures⟩
    · intro htruth
      refine ⟨fun hpos => absurd hpos (Nat.lt_irrefl 0), fun hne => absurd rfl hne, ?_⟩
      intro _ hfailures
      rcases htruth with hlength | ⟨-, hne⟩
      · exact List.length_eq_zero_iff.mp hlength.symm
      · exact absurd hfailures hne
  · have hpos : 0 < ((sourceWriter env color ds).shown ds).length := List.length_pos_iff.mpr hshown
    constructor
    · rintro ⟨hcount, -, -⟩
      exact .inl (hcount hpos).2
    · rintro (hlength | ⟨hnil, -⟩)
      · exact ⟨fun _ => ⟨rfl, hlength⟩, fun _ => rfl, fun hzero => absurd hzero hpos.ne'⟩
      · exact absurd hnil hshown

end Full

/-! ### The findings of a check -/

/-- A finding of a check has a place in a file that can be read. -/
lemma isReadable_of_mem_diagnosticsOf {env : Environment} {parse : Parser} {ps : List Path}
    {d : Diagnostic} (hd : d ∈ diagnosticsOf env parse ps) :
    d.location.isSome = true ∧ IsReadable env (diagnosticsOf env parse ps) d := by
  obtain ⟨p, -, l, hl, hloop⟩ := mem_diagnosticsOf_iff.mp hd
  have hread : ∃ s, env.readText ⟨env.relativize p⟩ = .ok s := by
    rw [loopsAt] at hl
    cases hread : env.readText ⟨env.relativize p⟩ with
    | error e =>
      rw [hread] at hl
      cases hl
    | ok s => exact ⟨s, rfl⟩
  subst hloop
  exact ⟨rfl, _, hd, Path.same_self _, hread⟩

/-- **When the summary tells the truth.**  The concise report shows the findings with a place and
counts all, so it tells the truth exactly if all have one.  The report with source lines shows and
counts the findings in files that can be read; it tells the truth exactly if these are all, or if
there are none of them and a failure keeps it from saying that all is well.  On the findings of a
check both tell the truth. -/
theorem summary_tells_truth_iff (env : Environment) (color : Bool) (ds : List Diagnostic)
    (failures : List (String × Failure)) :
    Summarizes (concise env color ds failures) (conciseWriter color)
        (fileName env ((conciseWriter color).files ds)) ds ds.length failures ∧
      (TellsTruth (concise env color ds failures) ((conciseWriter color).shown ds) ds failures ↔
        ∀ d ∈ ds, d.location.isSome = true) ∧
      Summarizes (full env color ds failures) (sourceWriter env color ds)
        (fileName env ((sourceWriter env color ds).files ds)) ds
        ((sourceWriter env color ds).shown ds).length failures ∧
      (TellsTruth (full env color ds failures) ((sourceWriter env color ds).shown ds) ds failures ↔
        (∀ d ∈ ds, IsReadable env ds d) ∨
          (∀ d ∈ ds, ¬IsReadable env ds d) ∧ failures ≠ []) ∧
      ∀ (parse : Parser) (ps : List Path),
        TellsTruth (concise env color (diagnosticsOf env parse ps) failures)
            ((conciseWriter color).shown (diagnosticsOf env parse ps))
            (diagnosticsOf env parse ps) failures ∧
          TellsTruth (full env color (diagnosticsOf env parse ps) failures)
            ((sourceWriter env color (diagnosticsOf env parse ps)).shown
              (diagnosticsOf env parse ps)) (diagnosticsOf env parse ps) failures := by
  refine ⟨summarizes_concise env color ds failures, tellsTruth_concise_iff env color ds failures,
    summarizes_full env color ds failures, tellsTruth_full_iff env color ds failures, ?_⟩
  intro parse ps
  constructor
  · rw [tellsTruth_concise_iff]
    intro d hd
    exact (isReadable_of_mem_diagnosticsOf hd).1
  · rw [tellsTruth_full_iff]
    refine .inl ?_
    intro d hd
    exact (isReadable_of_mem_diagnosticsOf hd).2

/-- A finding in a file that is gone. -/
def goneFinding : Diagnostic := findingAt "gone.js" 1

/-- A finding without a place. -/
def placelessFinding : Diagnostic := { findingAt "here.js" 1 with location := none }

/-- Two summaries that are not true.  The report with source lines shows nothing of a finding in a
file that is gone, and says that all is well.  The concise report shows nothing of a finding without
a place, and counts it. -/
theorem passed_although_found :
    (full halfWorld false [goneFinding] []).printed = "All checks passed!\n" ∧
      ¬TellsTruth (full halfWorld false [goneFinding] [])
        ((sourceWriter halfWorld false [goneFinding]).shown [goneFinding]) [goneFinding] [] ∧
      (concise halfWorld false [placelessFinding] []).written = "" ∧
      (concise halfWorld false [placelessFinding] []).printed = "\nFound 1 error.\n" ∧
      ¬TellsTruth (concise halfWorld false [placelessFinding] [])
        ((conciseWriter false).shown [placelessFinding]) [placelessFinding] [] := by
  have hpassed : (full halfWorld false [goneFinding] []).printed = "All checks passed!\n" := by
    decide +kernel
  refine ⟨hpassed, ?_, by decide +kernel, by decide +kernel, ?_⟩
  · intro htruth
    have hline : passedLine ∈ linesOf (full halfWorld false [goneFinding] []).printed := by
      rw [hpassed]
      decide
    exact List.cons_ne_nil _ _ (htruth.passed hline).1
  · rw [tellsTruth_concise_iff]
    intro hplaces
    exact absurd (hplaces placelessFinding List.mem_cons_self) (by decide)

end LoopLint.Report
