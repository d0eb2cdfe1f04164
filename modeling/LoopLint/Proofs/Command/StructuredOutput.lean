import LoopLint.Proofs.Command.Run
import LoopLint.Proofs.Json.RoundTrip
import LoopLint.Proofs.Report.Document

/-!
# What a program can read of a run

A run that reports as data is meant for a reader that is a program.  `WritesDocument` says what such
a reader needs: the output is one JSON document and a line break, and the document is an object with
the diagnostics in order under `diagnostics` and the failures in order under `errors`.

The main result is that a run keeps this exactly if it finds a file to check.  A run that finds none
prints the same warning in all formats, and that line is no JSON.
-/

namespace LoopLint

/-- The output is one JSON document and a line break.  The document is an object with the
diagnostics of some outcomes under `diagnostics`, and with their failures under `errors`, all of
them and each in order. -/
def WritesDocument (output : String) (outcomes : List Outcome) : Prop :=
  ∃ text v w ds es, output = text ++ "\n" ∧
    Json.parse? text = some (.obj [("diagnostics", v), ("errors", w)]) ∧
    Report.decode (.obj [("diagnostics", v), ("errors", w)]) = .ok (ds, es) ∧
    ds.Perm (Outcome.diagnostics outcomes) ∧ ds.Pairwise (fun a b => (a.compare b).isLE) ∧
    es.Perm ((Outcome.failures outcomes).map fun e => (e.1, e.2.text)) ∧
    es.Pairwise (fun a b => (compare a.1 b.1).isLE)

namespace CheckOptions

/-- Sorting failures neither adds nor drops any. -/
lemma sortFailures_perm (failures : List (String × Failure)) :
    (sortFailures failures).Perm failures :=
  List.mergeSort_perm failures _

/-- Sorted failures are in the order of their files. -/
lemma pairwise_sortFailures (failures : List (String × Failure)) :
    (sortFailures failures).Pairwise fun a b => (compare a.1 b.1).isLE :=
  pairwise_isLE_mergeSort (compareOn Prod.fst) failures

/-- A report as data is a document. -/
lemma writesDocument_report (env : Environment) (parse : Parser) (color : Bool)
    (used : Option FoundSettings) {o : CheckOptions} (hjson : o.format = .json)
    (remote : Option Path) (elapsed : String) :
    WritesDocument ((o.report env parse color used).written ++
      (o.report env parse color used).printed ++ o.remarks remote elapsed)
      (o.outcomes env parse used) := by
  have houtput : (o.report env parse color used).written ++
      (o.report env parse color used).printed ++ o.remarks remote elapsed =
        (Report.toJson (o.reported env parse used) (o.failed env parse used)).pretty ++ "\n" := by
    simp [report, hjson, Report.make, Report.json, Report.line, remarks, allowsRemarks]
  refine ⟨_, _, _, _, _, houtput, Json.parse?_pretty _, Report.decode_toJson _ _, ?_, ?_, ?_, ?_⟩
  · exact List.mergeSort_perm _ _
  · exact pairwise_isLE_mergeSort Diagnostic.compare _
  · exact (sortFailures_perm _).map _
  · exact List.pairwise_map.mpr (pairwise_sortFailures _)

/-- The warning that there is nothing to check is no document. -/
lemma not_writesDocument_nothingFound (color : Bool) (outcomes : List Outcome) :
    ¬WritesDocument (nothingFound color).output outcomes := by
  rintro ⟨text, v, w, ds, es, houtput, hparse, -⟩
  have htext : text = Ink.warningWord.paint color "Warning" ++ ": " ++ Ink.warningText.paint color
      "No JavaScript or TypeScript files found under the given path(s)." :=
    (String.append_left_inj "\n").mp houtput.symm
  have hnone : Json.parse? text = none := by
    -- the line starts with the word itself, or with the control sequence for its colour
    cases color with
    | false =>
      refine Json.parse?_eq_none (c := 'W') ?_ rfl (by decide) (by decide) (by decide)
      simp [htext, Ink.paint]
    | true =>
      refine Json.parse?_eq_none (c := '\x1b') ?_ rfl (by decide) (by decide) (by decide)
      simp [htext, Ink.paint, Ink.code]
  rw [hnone] at hparse
  cases hparse

/-- A run that reports as data writes a document exactly if it finds a file.  Otherwise it prints
the warning that there is nothing to check. -/
theorem writesDocument_iff_found (env : Environment) (parse : Parser) (color : Bool)
    (elapsed : String) (o : CheckOptions) (hjson : o.format = .json) (r : CommandResult)
    (hrun : (o.run env parse color elapsed).value = .ok r) :
    ∃ used, o.usedSettings env = .ok used ∧
      (WritesDocument r.output (o.outcomes env parse used) ↔ o.found env used ≠ []) ∧
      (o.found env used = [] → r = nothingFound color) := by
  obtain ⟨used, hused, ⟨hfound, rfl⟩ | ⟨hfound, houtput, -⟩⟩ := run_eq_ok hrun
  · refine ⟨used, hused, ⟨fun hdocument => ?_, fun hne => absurd hfound hne⟩, fun _ => rfl⟩
    exact absurd hdocument (not_writesDocument_nothingFound color _)
  · refine ⟨used, hused, ⟨fun _ => hfound, fun _ => ?_⟩, fun hnone => absurd hnone hfound⟩
    rw [houtput]
    exact writesDocument_report env parse color used hjson _ elapsed

/-- The run over `loopsWorld` writes a document with two diagnostics and one failure. -/
theorem writesDocument_loopsWorld :
    loopsOptions.format = .json ∧
      ∃ r, (loopsOptions.run loopsWorld nestedParser false "0s").value = .ok r ∧
        (Outcome.diagnostics (loopsOptions.outcomes loopsWorld nestedParser none)).length = 2 ∧
        (Outcome.failures (loopsOptions.outcomes loopsWorld nestedParser none)).length = 1 ∧
        WritesDocument r.output (loopsOptions.outcomes loopsWorld nestedParser none) := by
  obtain ⟨r, hrun⟩ := exists_run_loopsWorld
  obtain ⟨used, hused, hiff, -⟩ :=
    writesDocument_iff_found loopsWorld nestedParser false "0s" loopsOptions rfl r hrun
  obtain rfl : none = used := by
    rw [usedSettings_loopsWorld] at hused
    exact Except.ok.inj hused
  refine ⟨rfl, r, hrun, length_outcomes_loopsWorld.1, length_outcomes_loopsWorld.2, hiff.mpr ?_⟩
  rw [found_loopsWorld]
  exact List.cons_ne_nil _ _

/-- A directory with nothing to check. -/
def notesWorld : Environment where
  root := .directory [("notes.md", .file "x".toUTF8)]
  directory := some ⟨"/"⟩
  vars := []

/-- In a directory with nothing to check, a run that reports as data succeeds, but its output is no
document. -/
theorem not_writesDocument_notesWorld :
    ∃ o r, o.format = .json ∧ (run notesWorld (fun _ _ => none) false "0s" o).value = .ok r ∧
      r.status = .success ∧ Json.parse? r.output = none ∧
        ∀ outcomes, ¬WritesDocument r.output outcomes := by
  refine ⟨⟨["."], false, .json, false⟩, nothingFound false, rfl, ?_, rfl, by decide +kernel,
    not_writesDocument_nothingFound false⟩
  exact eq_ok_of_toOption (by decide +kernel)

end CheckOptions
end LoopLint
