import LoopLint.Proofs.Loop.Findings
import LoopLint.Proofs.Sorting

/-!
# What is found in files

A file that is checked gives its diagnostics, or the reason why it cannot be checked.  This module
says what the diagnostics and the failures of some files are, file by file: `diagnosticsAt` and
`failureAt` for the file at a path, `diagnosticsOf` and `failuresOf` for a list of paths, in the
order of a report.  Behind every diagnostic there is a loop of its file (`loopsAt`), and
`mem_diagnosticsOf_iff` leads from the one to the other.
-/

namespace LoopLint

/-- A result that is there is no error. -/
lemma eq_ok_of_toOption {ε α : Type} {x : Except ε α} {a : α} (h : x.toOption = some a) :
    x = .ok a := by
  cases x with
  | error e => cases h
  | ok b =>
    cases h
    rfl

/-- Logged computations can be put together in any grouping, and doing nothing says nothing. -/
instance : LawfulMonad Logged :=
  LawfulMonad.mk' Logged
    (fun m => by
      cases m
      simp [Functor.map])
    (fun a f => rfl)
    (fun m f g => by simp [bind])

/-- What comes out of a list of logged computations. -/
lemma Logged.value_mapM {α β : Type} (f : α → Logged β) (l : List α) :
    (l.mapM f).value = l.map fun a => (f a).value := by
  induction l with
  | nil => rfl
  | cons a l ih =>
    rw [List.mapM_cons, Logged.value_bind, Logged.value_bind, ih]
    rfl

/-- The diagnostics for the file at a path; there are none if it cannot be checked. -/
def diagnosticsAt (env : Environment) (parse : Parser) (p : Path) : List Diagnostic :=
  match (checkFile env parse p).value with
  | .ok ds => ds
  | .error _ => []

/-- The diagnostics of several files are those of one after the other. -/
lemma Outcome.diagnostics_ofPaths (env : Environment) (parse : Parser) (ps : List Path) :
    Outcome.diagnostics (Outcome.ofPaths env parse ps).value =
      ps.flatMap (diagnosticsAt env parse) := by
  rw [Outcome.ofPaths, Logged.value_mapM, Outcome.diagnostics, List.flatMap_map]
  rfl

/-- The failure of the file at a path, if it cannot be checked. -/
def failureAt (env : Environment) (parse : Parser) (p : Path) : Option (String × Failure) :=
  match (checkFile env parse p).value with
  | .ok _ => none
  | .error f => some (env.relativize p, f)

/-- The failures of several files are those of one after the other. -/
lemma Outcome.failures_ofPaths (env : Environment) (parse : Parser) (ps : List Path) :
    Outcome.failures (Outcome.ofPaths env parse ps).value = ps.filterMap (failureAt env parse) := by
  rw [Outcome.ofPaths, Logged.value_mapM, Outcome.failures, List.filterMap_map]
  rfl

/-! ### In the order of a report -/

/-- The diagnostics for some files, in the order of the report. -/
def diagnosticsOf (env : Environment) (parse : Parser) (ps : List Path) : List Diagnostic :=
  Diagnostic.sort (Outcome.diagnostics (Outcome.ofPaths env parse ps).value)

/-- The failures of some files, in the order of the report. -/
def failuresOf (env : Environment) (parse : Parser) (ps : List Path) : List (String × Failure) :=
  CheckOptions.sortFailures (Outcome.failures (Outcome.ofPaths env parse ps).value)

/-- Up to their order, the diagnostics for some files are those for one after the other. -/
lemma diagnosticsOf_perm (env : Environment) (parse : Parser) (ps : List Path) :
    (diagnosticsOf env parse ps).Perm (ps.flatMap (diagnosticsAt env parse)) := by
  rw [← Outcome.diagnostics_ofPaths]
  exact List.mergeSort_perm _ _

/-- Up to their order, the failures of some files are those of one after the other. -/
lemma failuresOf_perm (env : Environment) (parse : Parser) (ps : List Path) :
    (failuresOf env parse ps).Perm (ps.filterMap (failureAt env parse)) := by
  rw [← Outcome.failures_ofPaths]
  exact List.mergeSort_perm _ _

/-! ### The loops behind the diagnostics -/

/-- The diagnostic for a loop in a file. -/
def CountedLoop.diagnosticIn (l : CountedLoop) (file : Path) : Diagnostic :=
  { l.diagnostic with filename := file }

/-- The diagnostic for a loop names the file. -/
lemma CountedLoop.filename_diagnosticIn (l : CountedLoop) (file : Path) :
    (l.diagnosticIn file).filename = file := rfl

/-- The loops that are reported in the file at a path; there are none if it cannot be checked. -/
def loopsAt (env : Environment) (parse : Parser) (p : Path) : List CountedLoop :=
  match env.readText ⟨env.relativize p⟩ with
  | .error _ => []
  | .ok source =>
    match (Language.ofPath? ⟨env.relativize p⟩).bind fun language => parse language source with
    | none => []
    | some t => ((Node.ofTree t).reportedLoops source).toOption.getD []

/-- The diagnostics for a file are those for its loops. -/
lemma diagnosticsAt_eq_map (env : Environment) (parse : Parser) (p : Path) :
    diagnosticsAt env parse p =
      (loopsAt env parse p).map fun l => l.diagnosticIn ⟨env.relativize p⟩ := by
  unfold diagnosticsAt checkFile loopsAt
  simp only
  cases env.readText ⟨env.relativize p⟩ with
  | error e => rfl
  | ok source =>
    unfold checkText
    simp only [Logged.value_bind]
    cases Language.ofPath? ⟨env.relativize p⟩ with
    | none => rfl
    | some language =>
      simp only [Option.bind_some]
      cases parse language source with
      | none => rfl
      | some t =>
        simp only [Logged.value_bind, checkNode_value_eq_map]
        cases (Node.ofTree t).reportedLoops source with
        | error e => rfl
        | ok loops => exact List.map_map

/-- A diagnostic for some files is that for a loop in one of them. -/
lemma mem_diagnosticsOf_iff {env : Environment} {parse : Parser} {ps : List Path}
    {d : Diagnostic} : d ∈ diagnosticsOf env parse ps ↔
      ∃ p ∈ ps, ∃ l ∈ loopsAt env parse p, l.diagnosticIn ⟨env.relativize p⟩ = d := by
  rw [(diagnosticsOf_perm env parse ps).mem_iff, List.mem_flatMap]
  simp only [diagnosticsAt_eq_map, List.mem_map]

/-- A failure of some files is that of one of them. -/
lemma mem_failuresOf_iff {env : Environment} {parse : Parser} {ps : List Path}
    {e : String × Failure} :
    e ∈ failuresOf env parse ps ↔ ∃ p ∈ ps, failureAt env parse p = some e := by
  rw [(failuresOf_perm env parse ps).mem_iff, List.mem_filterMap]

/-- Every diagnostic names its file as it is seen from the working directory. -/
lemma filename_of_mem_diagnosticsAt {env : Environment} {parse : Parser} {p : Path}
    {d : Diagnostic} (h : d ∈ diagnosticsAt env parse p) : d.filename = ⟨env.relativize p⟩ := by
  rw [diagnosticsAt_eq_map] at h
  obtain ⟨l, -, rfl⟩ := List.mem_map.mp h
  exact l.filename_diagnosticIn _

/-- Every failure names its file as it is seen from the working directory. -/
lemma name_of_failureAt {env : Environment} {parse : Parser} {p : Path} {e : String × Failure}
    (h : failureAt env parse p = some e) : e.1 = env.relativize p := by
  unfold failureAt at h
  split at h <;> cases h
  rfl

end LoopLint
