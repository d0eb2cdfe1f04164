import LoopLint.Proofs.Json.RoundTrip
import LoopLint.Report.Basic

/-!
# Reading a report that was written as data

A report in the format for data is one JSON document.  `Report.decode` reads such a document: the
diagnostics under `diagnostics`, and under `errors` the files that could not be checked with what is
said of them.  `Report.decode_toJson` says that what is read is what the report was made from, and
`Report.json_report_reads_back` says the same of the text: nothing is lost on the way.

All records are read in the same way, so one lemma on `decodeRecord` serves for all of them: an
object that has the fields of a record in their order gives their values.
-/

namespace LoopLint

namespace Json

/-- A value that was read is handed on. -/
@[simp] lemma ok_bind {ε α β : Type} (a : α) (f : α → Except ε β) :
    ((.ok a : Except ε α) >>= f) = f a := rfl

/-- A value that was read is converted. -/
@[simp] lemma map_ok {ε α β : Type} (f : α → β) (a : α) :
    (f <$> (.ok a : Except ε α)) = .ok (f a) := rfl

/-- A function that succeeds on all items succeeds on the list. -/
lemma mapM_eq_ok {ε α β : Type} {f : α → Except ε β} {g : α → β} {l : List α}
    (h : ∀ a ∈ l, f a = .ok (g a)) : l.mapM f = .ok (l.map g) := by
  induction l with
  | nil => rfl
  | cons a l ih =>
    have hl := ih fun b hb => h b (List.mem_cons_of_mem a hb)
    rw [List.mapM_cons, h a List.mem_cons_self, hl]
    rfl

/-- A check that succeeds on all items succeeds on the list. -/
lemma forM_eq_ok {ε α : Type} {f : α → Except ε Unit} {l : List α}
    (h : ∀ a ∈ l, f a = .ok ()) : l.forM f = .ok () := by
  induction l with
  | nil => rfl
  | cons a l ih =>
    have hl := ih fun b hb => h b (List.mem_cons_of_mem a hb)
    rw [show (a :: l).forM f = (f a >>= fun _ => l.forM f) from rfl, h a List.mem_cons_self]
    exact hl

/-- Where the keys are different, a key leads to its own item. -/
lemma find?_eq_some_of_nodup {α : Type} {key : α → String} {l : List α}
    (hl : (l.map key).Nodup) {a : α} (ha : a ∈ l) : l.find? (fun b => key b == key a) = some a := by
  induction l with
  | nil => cases ha
  | cons b l ih =>
    rw [List.map_cons, List.nodup_cons] at hl
    rcases List.mem_cons.mp ha with rfl | ha
    · simp
    · have hne : key b ≠ key a := fun heq => hl.1 (heq ▸ List.mem_map_of_mem ha)
      rw [List.find?_cons_of_neg (by simpa using hne), ih hl.2 ha]

/-- An object that has exactly the fields of a record, in their order and with values that pass
their checks, gives these values. -/
theorem decodeRecord_obj (name : String) (fields : List (FieldRule × Json))
    (hnames : (fields.map (·.1.name)).Nodup) (hchecks : ∀ f ∈ fields, f.1.check f.2 = .ok ()) :
    decodeRecord name (fields.map (·.1)) (obj (fields.map fun f => (f.1.name, f.2))) =
      .ok (fields.map (·.2)) := by
  have hrule : ∀ f ∈ fields, (fields.map (·.1)).find? (fun r => r.name == f.1.name) = some f.1 := by
    intro f hf
    rw [List.find?_map]
    have hfind := find?_eq_some_of_nodup hnames hf
    simp only [Function.comp_def, hfind, Option.map_some]
  have hentry : ∀ f ∈ fields,
      member? (fields.map fun f => (f.1.name, f.2)) f.1.name = some f.2 := by
    intro f hf
    rw [member?, List.find?_map]
    have hfind := find?_eq_some_of_nodup hnames hf
    simp only [Function.comp_def, hfind, Option.map_some]
  unfold decodeRecord
  simp only
  rw [forM_eq_ok]
  · rw [List.mapM_map]
    refine mapM_eq_ok fun f hf => ?_
    simp only [Function.comp_apply, hentry f hf]
  · intro e he
    obtain ⟨f, hf, rfl⟩ := List.mem_map.mp he
    simp only [hrule f hf]
    exact hchecks f hf

/-- The items of an array are read back if each of them is. -/
lemma decodeList_map {α : Type} {d : Decoder α} {f : α → Json} (h : ∀ a, d (f a) = .ok a)
    (l : List α) : decodeList d (arr (l.map f)) = .ok l := by
  have hmap : (l.map f).mapM d = .ok (l.map id) := by
    rw [List.mapM_map]
    exact mapM_eq_ok fun a _ => h a
  rw [decodeList, hmap, List.map_id]

/-- A text is read as it is. -/
@[simp] lemma decodeText_str (expected s : String) : decodeText expected (str s) = .ok s := rfl

/-- A number is read as it is. -/
@[simp] lemma decodeNat_nat (n : Nat) : decodeNat (nat n) = .ok n := rfl

/-- A text that may be missing is read as it is. -/
@[simp] lemma decodeOption_optionalText (expected : String) (s : Option String) :
    decodeOption (decodeText expected) (optionalText s) = .ok s := by
  cases s <;> rfl

end Json

open Json (Decoder)

/-! ### Diagnostics -/

/-- A message is read back. -/
lemma Message.decode_toJson (m : Message) : decode m.toJson = .ok m := by
  have hrecord := Json.decodeRecord_obj "ViolationData"
    [(⟨"name", Json.checked (Json.decodeText "a string"), false⟩, .str m.name),
      (⟨"body", Json.checked (Json.decodeText "a string"), false⟩, .str m.body),
      (⟨"suggestion", Json.checked (Json.decodeOption (Json.decodeText "a string")), true⟩,
        .optionalText m.suggestion)]
    (by simp) (by simp [Json.checked, Except.map])
  simp only [List.map_cons, List.map_nil] at hrecord
  simp [decode, toJson, hrecord]

/-- A range is read back. -/
lemma TextRange.decode_toJson (r : TextRange) : decode r.toJson = .ok r := by
  have hrecord := Json.decodeRecord_obj "TextRange"
    [(⟨"start", Json.checked Json.decodeNat, false⟩, .nat r.start),
      (⟨"end", Json.checked Json.decodeNat, false⟩, .nat r.stop)]
    (by simp) (by simp [Json.checked, Except.map])
  simp only [List.map_cons, List.map_nil] at hrecord
  simp [decode, toJson, hrecord]

/-- A location is read back. -/
lemma Location.decode_toJson (l : Location) : decode l.toJson = .ok l := by
  have hrecord := Json.decodeRecord_obj "Location"
    [(⟨"row", Json.checked Json.decodeNat, false⟩, .nat l.row),
      (⟨"column", Json.checked Json.decodeNat, false⟩, .nat l.column)]
    (by simp) (by simp [Json.checked, Except.map])
  simp only [List.map_cons, List.map_nil] at hrecord
  simp [decode, toJson, hrecord]

/-- A diagnostic is read from its fields, whatever way its location is given. -/
lemma Diagnostic.decode_obj (m : Message) (file : String) (r : TextRange) {v : Json}
    {location : Option Location} (h : Json.decodeOption Location.decode v = .ok location) :
    decode (.obj [("message", m.toJson), ("filename", .str file), ("range", r.toJson),
      ("location", v)]) = .ok ⟨m, ⟨file⟩, r, location⟩ := by
  have hmessage := m.decode_toJson
  have hrange := r.decode_toJson
  have hrecord := Json.decodeRecord_obj "Diagnostic"
    [(⟨"message", Json.checked Message.decode, false⟩, m.toJson),
      (⟨"filename", Json.checked (Json.decodeText "path string"), false⟩, .str file),
      (⟨"range", Json.checked TextRange.decode, false⟩, r.toJson),
      (⟨"location", Json.checked (Json.decodeOption Location.decode), true⟩, v)]
    (by simp) (by simp [Json.checked, Except.map, hmessage, hrange, h])
  simp only [List.map_cons, List.map_nil] at hrecord
  simp [decode, hrecord, hmessage, hrange, h]

/-- A diagnostic is read back. -/
lemma Diagnostic.decode_toJson (d : Diagnostic) : decode d.toJson = .ok d := by
  obtain ⟨m, file, r, location⟩ := d
  cases location with
  | none => exact decode_obj m file.text r rfl
  | some l =>
    have hlocation : Json.decodeOption Location.decode l.toJson = .ok (some l) := by
      rw [show Json.decodeOption Location.decode l.toJson = (Location.decode l.toJson).map some
        from rfl, l.decode_toJson]
      rfl
    exact decode_obj m file.text r hlocation

/-! ### Reports -/

namespace Report

/-- Reads a file that could not be checked, and what is said of it. -/
def decodeError : Decoder (String × String) := fun v => do
  let text := Json.decodeText "a string"
  let values ← Json.decodeRecord "FileError"
    [⟨"file", Json.checked text, false⟩, ⟨"error", Json.checked text, false⟩] v
  match values with
  | [file, error] => return (← text file, ← text error)
  | _ => .error (.wrongType v.describe "struct FileError")

/-- Reads a report: the diagnostics, and the files that could not be checked. -/
def decode : Decoder (List Diagnostic × List (String × String)) := fun v => do
  let diagnostics := Json.decodeList Diagnostic.decode
  let errors := Json.decodeList decodeError
  let values ← Json.decodeRecord "Report"
    [⟨"diagnostics", Json.checked diagnostics, false⟩, ⟨"errors", Json.checked errors, false⟩] v
  match values with
  | [ds, es] => return (← diagnostics ds, ← errors es)
  | _ => .error (.wrongType v.describe "struct Report")

/-- A failure is read from its fields. -/
lemma decodeError_obj (file error : String) :
    decodeError (.obj [("file", .str file), ("error", .str error)]) = .ok (file, error) := by
  have hrecord := Json.decodeRecord_obj "FileError"
    [(⟨"file", Json.checked (Json.decodeText "a string"), false⟩, .str file),
      (⟨"error", Json.checked (Json.decodeText "a string"), false⟩, .str error)]
    (by simp) (by simp [Json.checked, Except.map])
  simp only [List.map_cons, List.map_nil] at hrecord
  simp [decodeError, hrecord]

/-- A report is read from its two lists. -/
lemma decode_obj {v w : Json} {ds : List Diagnostic} {es : List (String × String)}
    (hds : Json.decodeList Diagnostic.decode v = .ok ds)
    (hes : Json.decodeList decodeError w = .ok es) :
    decode (.obj [("diagnostics", v), ("errors", w)]) = .ok (ds, es) := by
  have hrecord := Json.decodeRecord_obj "Report"
    [(⟨"diagnostics", Json.checked (Json.decodeList Diagnostic.decode), false⟩, v),
      (⟨"errors", Json.checked (Json.decodeList decodeError), false⟩, w)]
    (by simp) (by simp [Json.checked, Except.map, hds, hes])
  simp only [List.map_cons, List.map_nil] at hrecord
  simp [decode, hrecord, hds, hes]

/-- A report as data is read back: the diagnostics as they are, and the failures with their texts.
-/
theorem decode_toJson (ds : List Diagnostic) (failures : List (String × Failure)) :
    decode (toJson ds failures) = .ok (ds, failures.map fun e => (e.1, e.2.text)) := by
  have hdiagnostics := Json.decodeList_map Diagnostic.decode_toJson ds
  have herrors := Json.decodeList_map
    (fun e : String × String => decodeError_obj e.1 e.2) (failures.map fun e => (e.1, e.2.text))
  rw [List.map_map] at herrors
  exact decode_obj hdiagnostics herrors

/-- The text of a report as data stands for the document that it was made from; the line break
behind it is no part of a value. -/
lemma parse?_written_json (ds : List Diagnostic) (failures : List (String × Failure)) :
    Json.parse? (json ds failures).written = some (toJson ds failures) :=
  Json.parse?_pretty_append (toJson ds failures) "\n" (by decide)

/-- The document has no more of a failure than its file and its text. -/
lemma toJson_congr (ds : List Diagnostic) {failures failures' : List (String × Failure)}
    (h : failures.map (fun e => (e.1, e.2.text)) = failures'.map fun e => (e.1, e.2.text)) :
    toJson ds failures = toJson ds failures' := by
  have herrors := congrArg (List.map fun e : String × String =>
    Json.obj [("file", .str e.1), ("error", .str e.2)]) h
  rw [List.map_map, List.map_map] at herrors
  simp only [Function.comp_def] at herrors
  rw [toJson, toJson, herrors]

/-- **A report as data loses nothing.**  Its text is a JSON object.  What stands there under
`diagnostics` is read back as the diagnostics themselves, all of them and in their order; under
`errors` are the files that could not be checked, each with the whole chain of contexts and the
cause at its end.  Two reports have the same text only if they agree in all of this. -/
theorem json_report_reads_back (ds : List Diagnostic) (failures : List (String × Failure)) :
    (∃ entries v, Json.parse? (json ds failures).written = some (.obj entries) ∧
        Json.member? entries "diagnostics" = some v ∧
        Json.decodeList Diagnostic.decode v = .ok ds ∧
        Json.member? entries "errors" = some (.arr (failures.map fun e =>
          .obj [("file", .str e.1),
            ("error", .str (": ".intercalate (e.2.contexts.reverse ++ [e.2.cause.text])))]))) ∧
      ∀ ds' failures', (json ds' failures').written = (json ds failures).written ↔
        ds' = ds ∧
          failures'.map (fun e => (e.1, e.2.text)) = failures.map fun e => (e.1, e.2.text) := by
  constructor
  · refine ⟨_, _, parse?_written_json ds failures, rfl, ?_, rfl⟩
    exact Json.decodeList_map Diagnostic.decode_toJson ds
  · intro ds' failures'
    constructor
    · intro htext
      have hdocument : toJson ds' failures' = toJson ds failures := by
        have hparse := parse?_written_json ds' failures'
        rw [htext, parse?_written_json] at hparse
        exact (Option.some.inj hparse).symm
      have hdecode := decode_toJson ds' failures'
      rw [hdocument, decode_toJson] at hdecode
      obtain ⟨hds, herrors⟩ := Prod.mk.inj (Except.ok.inj hdecode)
      exact ⟨hds.symm, herrors.symm⟩
    · rintro ⟨rfl, herrors⟩
      rw [json, toJson_congr ds' herrors, json]

end Report
end LoopLint
