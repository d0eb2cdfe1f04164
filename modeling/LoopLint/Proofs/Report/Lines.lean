import LoopLint.Proofs.Command.Outcomes
import LoopLint.Proofs.Loop.Placement

/-!
# Records and lines

Two of the reports consist of records: one for each finding, and among the annotations also one for
each file that could not be checked.  A `Record` is a text that begins with its head, and a report
is the `Record.text` of a list of them, whatever is found.

A record is meant to be a line.  It is one unless a text that was put into it has a line break
(`Text.breaks`), since nothing that the report itself adds has one: no colour, no number and no
fixed word.  What is put in are the names of files and the array of the loop, and the array is taken
from the source as it stands there.  So a report has one line for each record exactly if no name and
no array has a line break.
-/

namespace LoopLint

/-! ### Line breaks -/

namespace Text

/-- The number of line breaks in a text. -/
def breaks (s : String) : Nat :=
  s.toList.count '\n'

/-- The line breaks of two texts add up. -/
@[simp] lemma breaks_append (s t : String) : breaks (s ++ t) = breaks s + breaks t := by
  rw [breaks, String.toList_append, List.count_append, breaks, breaks]

/-- A text put together from others has a line break if one of them has. -/
lemma breaks_join_eq_zero_iff (parts : List String) :
    breaks (String.join parts) = 0 ↔ ∀ s ∈ parts, breaks s = 0 := by
  rw [breaks, String.toList_join, List.count_eq_zero]
  simp [breaks, List.count_eq_zero]

/-- A number is written with digits only. -/
@[simp] lemma breaks_toString (n : Nat) : breaks (toString n) = 0 := by
  have hdigits : (toString n).toList = Nat.toDigits 10 n := Nat.toList_repr
  rw [breaks, hdigits, List.count_eq_zero]
  intro hmem
  have hdigit := Nat.isDigit_of_mem_toDigits (by decide) (by decide) hmem
  exact absurd hdigit (by decide)

end Text

namespace Ink

/-- The code that switches a colour on is on one line. -/
lemma breaks_code (ink : Ink) : Text.breaks ink.code = 0 := by
  cases ink <;> decide

/-- Switching a colour on again and again adds no line breaks. -/
lemma count_renew {code : List Char} (h : code.count '\n' = 0) (cs : List Char) :
    (renew code cs).count '\n' = cs.count '\n' := by
  fun_induction renew code cs with
  | case1 cs ih =>
    have hreset : reset.toList.count '\n' = 0 := by decide
    rw [List.count_append, List.count_append, hreset, h, ih]
    simp
  | case2 c cs hc ih => rw [List.count_cons, List.count_cons, ih]
  | case3 => rfl

/-- Colours do not break lines. -/
@[simp] lemma breaks_paint (ink : Ink) (color : Bool) (s : String) :
    Text.breaks (ink.paint color s) = Text.breaks s := by
  have hreset : Text.breaks reset = 0 := by decide
  have hrenew : Text.breaks (String.ofList (renew ink.code.toList s.toList)) = Text.breaks s := by
    rw [Text.breaks, String.toList_ofList, count_renew ink.breaks_code, Text.breaks]
  unfold paint
  split
  · rw [Text.breaks_append, Text.breaks_append, ink.breaks_code, hrenew, hreset]
    omega
  · rfl

end Ink

namespace Report

/-! ### Records -/

/-- A piece of a report that begins with its head. -/
structure Record where
  head : String
  body : String
  begins : head.toList <+: body.toList

/-- Some records, each with a line break behind it. -/
def Record.text (rs : List Record) : String :=
  String.join (rs.map fun r => line r.body)

/-- A record that begins with its head and goes on with more. -/
def Record.of (head more : String) : Record where
  head := head
  body := head ++ more
  begins := by
    rw [String.toList_append]
    exact List.prefix_append _ _

/-- A record has the line breaks of its head and of what follows. -/
lemma Record.breaks_of (head more : String) :
    Text.breaks (Record.of head more).body = Text.breaks head + Text.breaks more :=
  Text.breaks_append head more

/-- The texts of two rows of records stand one behind the other. -/
lemma Record.text_append (rs rs' : List Record) :
    Record.text (rs ++ rs') = Record.text rs ++ Record.text rs' := by
  rw [Record.text, List.map_append, String.join_append, Record.text, Record.text]

/-- The line breaks of some records are those behind them and those in them. -/
lemma Record.breaks_text (rs : List Record) :
    Text.breaks (Record.text rs) =
      rs.length + Text.breaks (String.join (rs.map Record.body)) := by
  induction rs with
  | nil => rfl
  | cons r rs ih =>
    have hline : Text.breaks (line r.body) = Text.breaks r.body + 1 := by
      rw [line, Text.breaks_append]
      rfl
    have hcons : Record.text (r :: rs) = line r.body ++ Record.text rs := by
      rw [Record.text, List.map_cons, String.join_cons, Record.text]
    rw [hcons, Text.breaks_append, hline, ih, List.map_cons, String.join_cons,
      Text.breaks_append, List.length_cons]
    omega

/-- Some records have no line breaks together if none of them has one. -/
lemma Record.breaks_bodies_eq_zero_iff (rs : List Record) :
    Text.breaks (String.join (rs.map Record.body)) = 0 ↔ ∀ r ∈ rs, Text.breaks r.body = 0 := by
  rw [Text.breaks_join_eq_zero_iff, List.forall_mem_map]

/-- The text has a record for each head, in their order.  Every one starts on a line of its own. -/
def RecordEach (heads : List String) (w : String) : Prop :=
  ∃ rs : List Record, rs.map Record.head = heads ∧ w = Record.text rs

/-- The text has a line for each head, in their order, and no other line. -/
def LineEach (heads : List String) (w : String) : Prop :=
  ∃ rs : List Record, rs.map Record.head = heads ∧ w = Record.text rs ∧
    ∀ r ∈ rs, Text.breaks r.body = 0

/-- Records are lines exactly if none has a line break.  There is no other way to find a line for
each of their heads, since the number of lines would be another one. -/
lemma lineEach_text_iff (rs : List Record) :
    LineEach (rs.map Record.head) (Record.text rs) ↔ ∀ r ∈ rs, Text.breaks r.body = 0 := by
  constructor
  · rintro ⟨rs', hheads, htext, hlines⟩
    have hlength : rs'.length = rs.length := by
      simpa using congrArg List.length hheads
    rw [← Record.breaks_bodies_eq_zero_iff] at hlines ⊢
    have hbreaks := congrArg Text.breaks htext
    rw [Record.breaks_text, Record.breaks_text] at hbreaks
    omega
  · intro hlines
    exact ⟨rs, rfl, rfl, hlines⟩

/-! ### The records of the reports -/

/-- The record of a finding; one without a place has none. -/
def conciseRecord? (color : Bool) (name : Path → String) (d : Diagnostic) : Option Record :=
  d.location.map fun place =>
    .of (Ink.file.paint color (name d.filename))
      (" [" ++ toString place.row ++ ":" ++ toString (place.column + 1) ++ "] " ++
        Ink.rule.paint color d.message.name ++ " " ++ d.message.full)

/-- The annotation of a finding; one without a place has none. -/
def githubRecord? (d : Diagnostic) : Option Record :=
  d.location.map fun place =>
    .of "::warning " ("title=forof (" ++ d.message.name ++ "),file=" ++ d.filename.text ++
      ",line=" ++ toString place.row ++ ",col=" ++ toString (place.column + 1) ++ "::" ++
      d.filename.text ++ ":" ++ toString place.row ++ ":" ++ toString (place.column + 1) ++ " [" ++
      d.message.name ++ "] " ++ d.message.full)

/-- The annotation of a file that could not be checked. -/
def errorRecord (e : String × Failure) : Record :=
  .of "::error " ("file=" ++ e.1 ++ "::" ++ e.2.cause.text)

/-- A line of the concise format is the text of a record, or of none. -/
lemma conciseLine_eq (color : Bool) (name : Path → String) (d : Diagnostic) :
    conciseLine color name d = Record.text (conciseRecord? color name d).toList := by
  unfold conciseLine conciseRecord?
  cases d.location with
  | none => rfl
  | some place =>
    simp only [Option.map_some, Option.toList_some, Record.text, List.map_cons, List.map_nil,
      String.join_cons, String.join_nil, Record.of, String.append_empty, String.append_assoc]

/-- A line of the `github` format is the text of a record, or of none. -/
lemma githubLine_eq (d : Diagnostic) :
    githubLine d = Record.text (githubRecord? d).toList := by
  have hhead : "::warning title=forof (" = "::warning " ++ "title=forof (" := by decide
  unfold githubLine githubRecord?
  cases d.location with
  | none => rfl
  | some place =>
    simp only [hhead, Option.map_some, Option.toList_some, Record.text, List.map_cons,
      List.map_nil, String.join_cons, String.join_nil, Record.of, String.append_empty,
      String.append_assoc]

/-- A failure is the text of a record in the `github` format. -/
lemma githubError_eq (e : String × Failure) :
    githubError e = line (errorRecord e).body := by
  have hhead : "::error file=" = "::error " ++ "file=" := by decide
  simp only [githubError, hhead, errorRecord, Record.of, String.append_assoc]

/-- A list of findings is written as the records of those that have one. -/
lemma join_map_eq_text {write : Diagnostic → String} {record? : Diagnostic → Option Record}
    (h : ∀ d, write d = Record.text (record? d).toList) (ds : List Diagnostic) :
    String.join (ds.map write) = Record.text (ds.filterMap record?) := by
  induction ds with
  | nil => rfl
  | cons d ds ih =>
    have hcons : (d :: ds).filterMap record? = (record? d).toList ++ ds.filterMap record? := by
      cases hd : record? d with
      | none => rw [List.filterMap_cons_none hd, Option.toList_none, List.nil_append]
      | some r => rw [List.filterMap_cons_some hd, Option.toList_some, List.singleton_append]
    rw [List.map_cons, String.join_cons, ih, h, hcons, Record.text_append]

/-- The name that a report on some findings shows for a file. -/
def shownName (env : Environment) (ds : List Diagnostic) : Path → String :=
  fileName env ((ds.filter (·.location.isSome)).map (·.filename))

/-- **The records of the concise report**, whatever the findings are. -/
theorem written_concise (env : Environment) (color : Bool) (ds : List Diagnostic)
    (failures : List (String × Failure)) :
    (concise env color ds failures).written =
      Record.text (ds.filterMap (conciseRecord? color (shownName env ds))) :=
  join_map_eq_text (conciseLine_eq color (shownName env ds)) ds

/-- **The records of the annotations**, whatever the findings are. -/
theorem written_github (ds : List Diagnostic) (failures : List (String × Failure)) :
    (github ds failures).written =
      Record.text (ds.filterMap githubRecord? ++ failures.map errorRecord) := by
  have herrors : String.join (failures.map githubError) =
      Record.text (failures.map errorRecord) := by
    rw [Record.text, List.map_map]
    exact congrArg String.join (List.map_congr_left fun e _ => githubError_eq e)
  rw [Record.text_append, github, join_map_eq_text githubLine_eq, herrors]

end Report

/-! ### What is put into the records -/

/-- The message adds no line break to those of the array. -/
lemma breaks_full_preferForOf (array : String) :
    Text.breaks (preferForOf array).full = Text.breaks array := by
  obtain ⟨hbody, hblank, hbefore, hafter⟩ : Text.breaks (preferForOf "").body = 0 ∧
      Text.breaks " " = 0 ∧ Text.breaks "Use `for (const item of " = 0 ∧
      Text.breaks ")` instead." = 0 := by decide +kernel
  have hfull : (preferForOf array).full = (preferForOf "").body ++ " " ++
      ("Use `for (const item of " ++ array ++ ")` instead.") := rfl
  rw [hfull]
  simp only [Text.breaks_append, hbody, hblank, hbefore, hafter]
  omega

namespace CountedLoop

variable (l : CountedLoop) (file : Path)

/-- The name of a finding is on one line. -/
lemma breaks_name_diagnosticIn : Text.breaks (l.diagnosticIn file).message.name = 0 := by
  have hname : (l.diagnosticIn file).message.name = "prefer_for_of" := rfl
  rw [hname]
  decide

/-- The message of a finding has the line breaks of the array. -/
lemma breaks_full_diagnosticIn :
    Text.breaks (l.diagnosticIn file).message.full = Text.breaks l.array.text :=
  breaks_full_preferForOf l.array.text

end CountedLoop

namespace Report

/-- The record of a loop has the line breaks of the file's name and of the array. -/
lemma exists_conciseRecord (color : Bool) (name : Path → String) (l : CountedLoop) (file : Path) :
    ∃ r, conciseRecord? color name (l.diagnosticIn file) = some r ∧
      r.head = Ink.file.paint color (name file) ∧
      Text.breaks r.body = Text.breaks (name file) + Text.breaks l.array.text := by
  obtain ⟨hopen, hcolon, hclose, hblank⟩ : Text.breaks " [" = 0 ∧ Text.breaks ":" = 0 ∧
      Text.breaks "] " = 0 ∧ Text.breaks " " = 0 := by decide
  refine ⟨_, rfl, rfl, ?_⟩
  simp only [Record.breaks_of, Text.breaks_append, Ink.breaks_paint, Text.breaks_toString,
    l.filename_diagnosticIn, l.breaks_name_diagnosticIn, l.breaks_full_diagnosticIn, hopen, hcolon,
    hclose, hblank]
  omega

/-- The annotation of a loop has those of the file's name twice. -/
lemma exists_githubRecord (l : CountedLoop) (file : Path) :
    ∃ r, githubRecord? (l.diagnosticIn file) = some r ∧ r.head = "::warning " ∧
      Text.breaks r.body = 2 * Text.breaks file.text + Text.breaks l.array.text := by
  obtain ⟨hhead, htitle, hfile, hline, hcol, hcolons, hcolon, hopen, hclose⟩ :
      Text.breaks "::warning " = 0 ∧ Text.breaks "title=forof (" = 0 ∧
      Text.breaks "),file=" = 0 ∧ Text.breaks ",line=" = 0 ∧ Text.breaks ",col=" = 0 ∧
      Text.breaks "::" = 0 ∧ Text.breaks ":" = 0 ∧ Text.breaks " [" = 0 ∧
      Text.breaks "] " = 0 := by decide
  refine ⟨_, rfl, rfl, ?_⟩
  simp only [Record.breaks_of, Text.breaks_append, Text.breaks_toString, l.filename_diagnosticIn,
    l.breaks_name_diagnosticIn, l.breaks_full_diagnosticIn, hhead, htitle, hfile, hline, hcol,
    hcolons, hcolon, hopen, hclose]
  omega

/-- The record of a failure has the line breaks of the file's name and of the reason. -/
lemma breaks_errorRecord (e : String × Failure) :
    Text.breaks (errorRecord e).body = Text.breaks e.1 + Text.breaks e.2.cause.text := by
  obtain ⟨hhead, hfile, hcolons⟩ : Text.breaks "::error " = 0 ∧ Text.breaks "file=" = 0 ∧
      Text.breaks "::" = 0 := by decide
  simp only [errorRecord, Record.breaks_of, Text.breaks_append, hhead, hfile, hcolons]
  omega

end Report

/-- What the file system says has no line break. -/
lemma FileError.breaks_text (e : FileError) : Text.breaks e.text = 0 := by
  cases e <;> decide +kernel

/-- Why a walk fails is said on one line. -/
lemma WalkError.breaks_text (e : WalkError) : Text.breaks e.text = 0 := by
  cases e <;> decide +kernel

/-- Syntax errors are told on one line, but for the name of the file. -/
lemma Cause.breaks_text_syntaxErrors (file : Path) :
    Text.breaks (Cause.syntaxErrors file).text = Text.breaks file.text := by
  obtain ⟨hparse, herrors⟩ : Text.breaks "Failed to parse " = 0 ∧
      Text.breaks " due to syntax errors." = 0 := by decide +kernel
  -- the equations of `Cause.text` compare all its long texts, so the text is given here
  change Text.breaks ("Failed to parse " ++ file.text ++ " due to syntax errors.") = _
  rw [Text.breaks_append, Text.breaks_append, hparse, herrors, Nat.zero_add, Nat.add_zero]

/-- An unknown language is told on one line, but for the name of the file. -/
lemma Cause.breaks_text_unsupportedLanguage (file : Path) :
    Text.breaks (Cause.unsupportedLanguage file).text = Text.breaks file.text := by
  obtain ⟨hknow, hexpected⟩ : Text.breaks "Don't know how to parse " = 0 ∧
      Text.breaks ": expected a JavaScript or TypeScript file." = 0 := by decide +kernel
  change Text.breaks ("Don't know how to parse " ++ file.text ++
    ": expected a JavaScript or TypeScript file.") = _
  rw [Text.breaks_append, Text.breaks_append, hknow, hexpected, Nat.zero_add, Nat.add_zero]

/-- Why a text cannot be checked is said with the name of the file, or without any name. -/
lemma breaks_of_checkText {parse : Parser} {file : Path} {source : String} {c : Cause}
    (h : (checkText parse file source).value = .error c) (hfile : Text.breaks file.text = 0) :
    Text.breaks c.text = 0 := by
  unfold checkText at h
  split at h
  · cases h
    rw [Cause.breaks_text_unsupportedLanguage, hfile]
  · split at h
    · cases h
      rw [Cause.breaks_text_syntaxErrors, hfile]
    · rw [Logged.value_bind] at h
      split at h
      · next e _ =>
        cases h
        exact e.breaks_text
      · cases h

/-- A file that cannot be checked, and why: it cannot be read, or its text cannot be checked. -/
lemma breaks_cause_of_failureAt {env : Environment} {parse : Parser} {p : Path}
    {e : String × Failure} (h : failureAt env parse p = some e)
    (hp : Text.breaks (env.relativize p) = 0) : Text.breaks e.2.cause.text = 0 := by
  unfold failureAt checkFile at h
  simp only at h
  cases hread : env.readText ⟨env.relativize p⟩ with
  | error error =>
    simp only [hread, Logged.value_pure] at h
    cases h
    exact error.breaks_text
  | ok source =>
    simp only [hread, Logged.value_bind] at h
    cases hcheck : (checkText parse ⟨env.relativize p⟩ source).value with
    | error c =>
      simp only [hcheck, Logged.value_pure] at h
      cases h
      exact breaks_of_checkText hcheck hp
    | ok ds =>
      simp only [hcheck, Logged.value_pure] at h
      cases h

/-- The record of a file that cannot be checked is a line if the file's name has no line break. -/
lemma breaks_errorRecord_eq_zero_iff {env : Environment} {parse : Parser} {p : Path}
    {e : String × Failure} (h : failureAt env parse p = some e) :
    Text.breaks (Report.errorRecord e).body = 0 ↔ Text.breaks (env.relativize p) = 0 := by
  rw [Report.breaks_errorRecord, name_of_failureAt h]
  constructor
  · intro hsum
    omega
  · intro hp
    rw [hp, breaks_cause_of_failureAt h hp]

namespace Report

section Findings

variable {env : Environment} {parse : Parser} {ps : List Path}
  {record? : Diagnostic → Option Record}

/-- Every finding has a record, so their heads are those of all findings. -/
lemma map_head_filterMap (head : Path → String)
    (h : ∀ (l : CountedLoop) (file : Path),
      ∃ r, record? (l.diagnosticIn file) = some r ∧ r.head = head file) :
    ((diagnosticsOf env parse ps).filterMap record?).map Record.head =
      (diagnosticsOf env parse ps).map fun d => head d.filename := by
  rw [List.map_filterMap, ← List.filterMap_eq_map]
  refine List.filterMap_congr ?_
  intro d hd
  obtain ⟨p, -, l, -, rfl⟩ := mem_diagnosticsOf_iff.mp hd
  obtain ⟨r, hr, hhead⟩ := h l ⟨env.relativize p⟩
  rw [hr, Option.map_some, hhead]
  rfl

/-- The records of the findings are lines exactly if the record of every loop is one. -/
lemma forall_record_iff (Clean : CountedLoop → Path → Prop)
    (h : ∀ (l : CountedLoop) (file : Path),
      ∃ r, record? (l.diagnosticIn file) = some r ∧ (Text.breaks r.body = 0 ↔ Clean l file)) :
    (∀ r ∈ (diagnosticsOf env parse ps).filterMap record?, Text.breaks r.body = 0) ↔
      ∀ p ∈ ps, ∀ l ∈ loopsAt env parse p, Clean l ⟨env.relativize p⟩ := by
  constructor
  · intro hall p hp l hl
    obtain ⟨r, hr, hclean⟩ := h l ⟨env.relativize p⟩
    have hmem : l.diagnosticIn ⟨env.relativize p⟩ ∈ diagnosticsOf env parse ps :=
      mem_diagnosticsOf_iff.mpr ⟨p, hp, l, hl, rfl⟩
    exact hclean.mp (hall r (List.mem_filterMap.mpr ⟨_, hmem, hr⟩))
  · intro hall r hr
    obtain ⟨d, hd, hrecord⟩ := List.mem_filterMap.mp hr
    obtain ⟨p, hp, l, hl, rfl⟩ := mem_diagnosticsOf_iff.mp hd
    obtain ⟨r', hr', hclean⟩ := h l ⟨env.relativize p⟩
    obtain rfl : r = r' := Option.some.inj (hrecord.symm.trans hr')
    exact hclean.mpr (hall p hp l hl)

end Findings

/-! ### Records that are lines -/

/-- What the records of the concise report begin with: the name of the file, as it is shown. -/
def conciseHeads (env : Environment) (color : Bool) (ds : List Diagnostic) : List String :=
  ds.map fun d => Ink.file.paint color (shownName env ds d.filename)

/-- What the annotations begin with. -/
def githubHeads (ds : List Diagnostic) (failures : List (String × Failure)) : List String :=
  ds.map (fun _ => "::warning ") ++ failures.map fun _ => "::error "

/-- What the lines behind the concise report begin with. -/
def summaryHeads (ds : List Diagnostic) (failures : List (String × Failure)) : List String :=
  if ds.isEmpty then if failures.isEmpty then ["All checks passed!"] else []
  else ["", "Found "]

variable (env : Environment) (parse : Parser) (color : Bool) (ps : List Path)

/-- The heads of the records in the concise format. -/
lemma map_head_concise : ((diagnosticsOf env parse ps).filterMap
      (conciseRecord? color (shownName env (diagnosticsOf env parse ps)))).map Record.head =
    conciseHeads env color (diagnosticsOf env parse ps) := by
  refine map_head_filterMap (fun file => Ink.file.paint color (shownName env _ file)) ?_
  intro l file
  obtain ⟨r, hr, hhead, -⟩ := exists_conciseRecord color _ l file
  exact ⟨r, hr, hhead⟩

/-- The heads of the records in the `github` format: the findings, then the failures. -/
lemma map_head_github :
    ((diagnosticsOf env parse ps).filterMap githubRecord? ++
        (failuresOf env parse ps).map errorRecord).map Record.head =
      githubHeads (diagnosticsOf env parse ps) (failuresOf env parse ps) := by
  have hfindings : ((diagnosticsOf env parse ps).filterMap githubRecord?).map Record.head =
      (diagnosticsOf env parse ps).map fun _ => "::warning " := by
    refine map_head_filterMap (fun _ => "::warning ") ?_
    intro l file
    obtain ⟨r, hr, hhead, -⟩ := exists_githubRecord l file
    exact ⟨r, hr, hhead⟩
  rw [List.map_append, hfindings, List.map_map]
  rfl

/-- In the concise report every finding has its line exactly if no shown name of a file and no array
of a reported loop has a line break. -/
lemma lineEach_concise_iff :
    LineEach (conciseHeads env color (diagnosticsOf env parse ps))
        (concise env color (diagnosticsOf env parse ps) (failuresOf env parse ps)).written ↔
      ∀ p ∈ ps, ∀ l ∈ loopsAt env parse p,
        Text.breaks (shownName env (diagnosticsOf env parse ps) ⟨env.relativize p⟩) = 0 ∧
          Text.breaks l.array.text = 0 := by
  rw [written_concise, ← map_head_concise, lineEach_text_iff]
  refine forall_record_iff (fun l file => Text.breaks (shownName env _ file) = 0 ∧
    Text.breaks l.array.text = 0) ?_
  intro l file
  obtain ⟨r, hr, -, hbreaks⟩ := exists_conciseRecord color _ l file
  exact ⟨r, hr, by rw [hbreaks, Nat.add_eq_zero_iff]⟩

/-- Among the annotations every finding and every file that cannot be checked has its line exactly
if no name of such a file and no array of a reported loop has a line break. -/
lemma lineEach_github_iff :
    LineEach (githubHeads (diagnosticsOf env parse ps) (failuresOf env parse ps))
        (github (diagnosticsOf env parse ps) (failuresOf env parse ps)).written ↔
      (∀ p ∈ ps, ∀ l ∈ loopsAt env parse p,
        Text.breaks (env.relativize p) = 0 ∧ Text.breaks l.array.text = 0) ∧
      ∀ p ∈ ps, failureAt env parse p ≠ none → Text.breaks (env.relativize p) = 0 := by
  rw [written_github, ← map_head_github, lineEach_text_iff, List.forall_mem_append]
  refine and_congr ?_ ?_
  · refine forall_record_iff (fun l file => Text.breaks file.text = 0 ∧
      Text.breaks l.array.text = 0) ?_
    intro l file
    obtain ⟨r, hr, -, hbreaks⟩ := exists_githubRecord l file
    refine ⟨r, hr, ?_⟩
    rw [hbreaks]
    omega
  · rw [List.forall_mem_map]
    constructor
    · intro hall p hp hfailure
      obtain ⟨e, he⟩ := Option.ne_none_iff_exists'.mp hfailure
      exact (breaks_errorRecord_eq_zero_iff he).mp (hall e (mem_failuresOf_iff.mpr ⟨p, hp, he⟩))
    · intro hall e he
      obtain ⟨p, hp, hfailure⟩ := mem_failuresOf_iff.mp he
      refine (breaks_errorRecord_eq_zero_iff hfailure).mpr (hall p hp ?_)
      rw [hfailure]
      exact Option.some_ne_none e

/-- What a number of findings is given with, behind the first word of the line. -/
def countText (n : Nat) : String :=
  toString n ++ (if n = 1 then " error." else " errors.")

/-- The number of findings is told on one line. -/
lemma breaks_countText (n : Nat) : Text.breaks (countText n) = 0 := by
  have hend : Text.breaks (if n = 1 then " error." else " errors.") = 0 := by
    split <;> decide
  rw [countText, Text.breaks_append, Text.breaks_toString, hend]

/-- If there are findings, one line says how many. -/
lemma summary_of_pos {count : Nat} (h : 0 < count) (failures : List (String × Failure)) :
    summary count failures = line ("Found " ++ countText count) := by
  unfold summary countText
  by_cases hmany : 1 < count
  · have hne : count ≠ 1 := by omega
    rw [if_pos hmany, if_neg hne, String.append_assoc]
  · have hone : count = 1 := by omega
    subst hone
    rw [if_neg hmany, if_pos rfl, if_pos rfl]
    decide

/-- What stands behind the concise report has its lines whatever is found. -/
lemma lineEach_printed (ds : List Diagnostic) (failures : List (String × Failure)) :
    LineEach (summaryHeads ds failures) (concise env color ds failures).printed := by
  cases ds with
  | nil =>
    cases failures with
    | nil =>
      have hpassed : Text.breaks "All checks passed!" = 0 := by decide
      refine ⟨[.of "All checks passed!" ""], rfl, ?_, ?_⟩
      · change "" ++ line "All checks passed!" = _
        decide
      · intro r hr
        rw [List.mem_singleton.mp hr, Record.breaks_of, hpassed]
        rfl
    | cons e failures => exact ⟨[], rfl, by rfl, by simp⟩
  | cons d ds =>
    have hfound : Text.breaks "Found " = 0 := by decide
    refine ⟨[.of "" "", .of "Found " (countText (ds.length + 1))], rfl, ?_, ?_⟩
    · change "\n" ++ summary (ds.length + 1) failures = _
      rw [summary_of_pos (Nat.succ_pos ds.length), Record.text, List.map_cons, List.map_singleton,
        String.join_cons, String.join_cons, String.join_nil, String.append_empty]
      rfl
    · intro r hr
      rcases List.mem_cons.mp hr with rfl | hr
      · rfl
      · rw [List.mem_singleton.mp hr, Record.breaks_of, hfound, breaks_countText]

/-- **Records are lines unless a name or an array is broken.**  Every finding, and among the
annotations every file that cannot be checked, has a record that starts on a line of its own.  The
records of a report are its lines exactly if no name of a file in them, and no array of a reported
loop, has a line break.  The lines behind the concise report are lines in any case. -/
theorem records_are_lines_iff (env : Environment) (parse : Parser) (color : Bool)
    (ps : List Path) :
    RecordEach (conciseHeads env color (diagnosticsOf env parse ps))
        (concise env color (diagnosticsOf env parse ps) (failuresOf env parse ps)).written ∧
      (LineEach (conciseHeads env color (diagnosticsOf env parse ps))
          (concise env color (diagnosticsOf env parse ps) (failuresOf env parse ps)).written ↔
        ∀ p ∈ ps, ∀ l ∈ loopsAt env parse p,
          Text.breaks (shownName env (diagnosticsOf env parse ps) ⟨env.relativize p⟩) = 0 ∧
            Text.breaks l.array.text = 0) ∧
      LineEach (summaryHeads (diagnosticsOf env parse ps) (failuresOf env parse ps))
        (concise env color (diagnosticsOf env parse ps) (failuresOf env parse ps)).printed ∧
      RecordEach (githubHeads (diagnosticsOf env parse ps) (failuresOf env parse ps))
        (github (diagnosticsOf env parse ps) (failuresOf env parse ps)).written ∧
      (LineEach (githubHeads (diagnosticsOf env parse ps) (failuresOf env parse ps))
          (github (diagnosticsOf env parse ps) (failuresOf env parse ps)).written ↔
        (∀ p ∈ ps, ∀ l ∈ loopsAt env parse p,
          Text.breaks (env.relativize p) = 0 ∧ Text.breaks l.array.text = 0) ∧
        ∀ p ∈ ps, failureAt env parse p ≠ none → Text.breaks (env.relativize p) = 0) :=
  ⟨⟨_, map_head_concise env parse color ps, written_concise _ _ _ _⟩,
    lineEach_concise_iff env parse color ps, lineEach_printed env color _ _,
    ⟨_, map_head_github env parse ps, written_github _ _⟩, lineEach_github_iff env parse ps⟩

/-- A world with `brokenLineSource` in a file. -/
def brokenLineWorld : Environment where
  root := .directory [("a.js", .file brokenLineSource.toUTF8)]
  directory := some ⟨"/"⟩
  vars := []

/-- The findings in `brokenLineWorld`. -/
def brokenLineFindings : List Diagnostic :=
  diagnosticsOf brokenLineWorld (fun _ _ => some brokenLineTree) [⟨"/a.js"⟩]

/-- The files in `brokenLineWorld` that cannot be checked. -/
def brokenLineFailures : List (String × Failure) :=
  failuresOf brokenLineWorld (fun _ _ => some brokenLineTree) [⟨"/a.js"⟩]

/-- The array of the one loop in `brokenLineWorld` stands on two lines. -/
lemma breaks_loopsAt_brokenLineWorld :
    (loopsAt brokenLineWorld (fun _ _ => some brokenLineTree) ⟨"/a.js"⟩).map
      (fun l => Text.breaks l.array.text) = [1] := by
  decide +kernel

/-- One finding, and no report has it on one line: the second line of the array starts a line of the
report. -/
theorem array_starts_line :
    brokenLineFindings.length = 1 ∧
      ¬ LineEach (conciseHeads brokenLineWorld false brokenLineFindings)
        (concise brokenLineWorld false brokenLineFindings brokenLineFailures).written ∧
      ¬ LineEach (githubHeads brokenLineFindings brokenLineFailures)
        (github brokenLineFindings brokenLineFailures).written := by
  obtain ⟨l, hl, hbreaks⟩ : ∃ l ∈ loopsAt brokenLineWorld (fun _ _ => some brokenLineTree)
      ⟨"/a.js"⟩, Text.breaks l.array.text = 1 := by
    rw [← List.mem_map, breaks_loopsAt_brokenLineWorld]
    exact List.mem_singleton_self 1
  refine ⟨?_, ?_, ?_⟩
  · rw [brokenLineFindings, (diagnosticsOf_perm _ _ _).length_eq, List.flatMap_singleton,
      diagnosticsAt_eq_map, List.length_map]
    simpa using congrArg List.length breaks_loopsAt_brokenLineWorld
  · rw [brokenLineFindings, brokenLineFailures, lineEach_concise_iff]
    intro hall
    have hnone := (hall ⟨"/a.js"⟩ List.mem_cons_self l hl).2
    omega
  · rw [brokenLineFindings, brokenLineFailures, lineEach_github_iff]
    intro hall
    have hnone := (hall.1 ⟨"/a.js"⟩ List.mem_cons_self l hl).2
    omega

end Report
end LoopLint
