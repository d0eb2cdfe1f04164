import LoopLint.Proofs.Command.Run
import LoopLint.Proofs.Environment.Rewrite

/-!
# Files fail on their own

A file that cannot be checked costs its own diagnostics and nothing else.  Three things are meant by
this.  Every path that is checked goes to one side of the report: it adds all its diagnostics, or it
adds one failure.  Writing other bytes to one file changes nothing that is reported on the others.
And what went wrong is what the command's status tells: `error` if some file could not be read, has
no language or has syntax errors, otherwise `failure` or `success`, with diagnostics or without.

All of it follows from one fact: the outcome for a path depends on what that path reads and on
nothing else (`checkFile_rewrite`).  `isolated_failures_decide_status` puts it together.
-/

namespace LoopLint

/-- Why the file at a path cannot be checked: it cannot be read, its name tells no language, or its
text has syntax errors. -/
inductive Uncheckable (env : Environment) (parse : Parser) (p : Path) : Prop
  | unreadable (e : FileError) (h : env.readText ⟨env.relativize p⟩ = .error e)
  | unsupported (h : Language.ofPath? ⟨env.relativize p⟩ = none)
  | malformed (source : String) (language : Language)
      (hread : env.readText ⟨env.relativize p⟩ = .ok source)
      (hlanguage : Language.ofPath? ⟨env.relativize p⟩ = some language)
      (hparse : parse language source = none)

section Sides

variable (env : Environment) (parse : Parser)

/-! ### Every path goes to one side -/

/-- What a path adds to the diagnostics. -/
lemma diagnosticsOf_append_cons (before after : List Path) (p : Path) :
    (diagnosticsOf env parse (before ++ p :: after)).Perm
      (diagnosticsAt env parse p ++ diagnosticsOf env parse (before ++ after)) := by
  have hrest := (diagnosticsOf_perm env parse (before ++ after)).symm
  rw [List.flatMap_append] at hrest
  refine (diagnosticsOf_perm env parse (before ++ p :: after)).trans ?_
  rw [List.flatMap_append, List.flatMap_cons]
  refine List.Perm.trans ?_ (List.Perm.append_left _ hrest)
  rw [← List.append_assoc, ← List.append_assoc]
  exact List.Perm.append_right _ List.perm_append_comm

/-- What a path adds to the failures. -/
lemma failuresOf_append_cons (before after : List Path) (p : Path) :
    (failuresOf env parse (before ++ p :: after)).Perm
      ((failureAt env parse p).toList ++ failuresOf env parse (before ++ after)) := by
  have hrest := (failuresOf_perm env parse (before ++ after)).symm
  rw [List.filterMap_append] at hrest
  refine (failuresOf_perm env parse (before ++ p :: after)).trans ?_
  refine List.Perm.trans ?_ (List.Perm.append_left _ hrest)
  rw [List.filterMap_append]
  cases hp : failureAt env parse p with
  | none => rw [List.filterMap_cons_none hp, Option.toList_none, List.nil_append]
  | some f =>
    rw [List.filterMap_cons_some hp, Option.toList_some, List.singleton_append]
    exact List.perm_middle

/-- A path that can be checked leaves the failures as they are. -/
lemma failuresOf_of_ok {p : Path} {ds : List Diagnostic}
    (hp : (checkFile env parse p).value = .ok ds) (before after : List Path) :
    failuresOf env parse (before ++ p :: after) = failuresOf env parse (before ++ after) := by
  have hnone : failureAt env parse p = none := by rw [failureAt, hp]
  rw [failuresOf, failuresOf, Outcome.failures_ofPaths, Outcome.failures_ofPaths,
    List.filterMap_append, List.filterMap_append, List.filterMap_cons_none hnone]

/-- A path that cannot be checked leaves the diagnostics as they are. -/
lemma diagnosticsOf_of_error {p : Path} {f : Failure}
    (hp : (checkFile env parse p).value = .error f) (before after : List Path) :
    diagnosticsOf env parse (before ++ p :: after) = diagnosticsOf env parse (before ++ after) := by
  have hnone : diagnosticsAt env parse p = [] := by rw [diagnosticsAt, hp]
  rw [diagnosticsOf, diagnosticsOf, Outcome.diagnostics_ofPaths, Outcome.diagnostics_ofPaths,
    List.flatMap_append, List.flatMap_append, List.flatMap_cons, hnone, List.nil_append]

/-- The path `p`, among others, adds to one side of the report: all its diagnostics, or one failure.
-/
def AddsToOneSide (before : List Path) (p : Path) (after : List Path) : Prop :=
  (∃ ds, (checkFile env parse p).value = .ok ds ∧
    (diagnosticsOf env parse (before ++ p :: after)).Perm
      (ds ++ diagnosticsOf env parse (before ++ after)) ∧
    failuresOf env parse (before ++ p :: after) = failuresOf env parse (before ++ after)) ∨
  (∃ f, (checkFile env parse p).value = .error f ∧
    diagnosticsOf env parse (before ++ p :: after) = diagnosticsOf env parse (before ++ after) ∧
    (failuresOf env parse (before ++ p :: after)).Perm
      ((env.relativize p, f) :: failuresOf env parse (before ++ after)))

/-- Every path adds to one side of the report, wherever it stands among the others. -/
lemma addsToOneSide (before : List Path) (p : Path) (after : List Path) :
    AddsToOneSide env parse before p after := by
  cases hp : (checkFile env parse p).value with
  | ok ds =>
    have hperm := diagnosticsOf_append_cons env parse before after p
    rw [diagnosticsAt, hp] at hperm
    exact .inl ⟨ds, hp, hperm, failuresOf_of_ok env parse hp before after⟩
  | error f =>
    have hperm := failuresOf_append_cons env parse before after p
    rw [failureAt, hp] at hperm
    exact .inr ⟨f, hp, diagnosticsOf_of_error env parse hp before after, hperm⟩

end Sides

/-! ### Other files stay as they are -/

section Rewrite

variable {env : Environment} {names : List String} {old : ByteArray}

/-- The outcome for a path is the same as long as it does not lead to the file that is written. -/
theorem checkFile_rewrite (h : env.root.at? names = some (.file old)) (content : ByteArray)
    (parse : Parser) {p : Path} (hp : env.leadsTo names ⟨env.relativize p⟩ = false) :
    checkFile (env.rewrite names content) parse p = checkFile env parse p := by
  have hread := Environment.readText_rewrite_of_not_leadsTo h content hp
  have hname : (env.rewrite names content).relativize p = env.relativize p := rfl
  unfold checkFile
  simp only [hname, hread]

/-- The diagnostics that a path gives for files other than the one that is written. -/
lemma filter_diagnosticsAt_rewrite (h : env.root.at? names = some (.file old)) (content : ByteArray)
    (parse : Parser) (p : Path) :
    (diagnosticsAt (env.rewrite names content) parse p).filter
        (fun d => !env.leadsTo names d.filename) =
      (diagnosticsAt env parse p).filter (fun d => !env.leadsTo names d.filename) := by
  cases hp : env.leadsTo names ⟨env.relativize p⟩ with
  | false =>
    unfold diagnosticsAt
    rw [checkFile_rewrite h content parse hp]
  | true =>
    -- All diagnostics name the file, before and after.
    have hnone : ∀ env' : Environment, env'.relativize p = env.relativize p →
        (diagnosticsAt env' parse p).filter (fun d => !env.leadsTo names d.filename) = [] := by
      intro env' hname
      refine List.filter_eq_nil_iff.mpr fun d hd => ?_
      rw [filename_of_mem_diagnosticsAt hd, hname, hp]
      exact Bool.false_ne_true
    exact (hnone (env.rewrite names content) rfl).trans (hnone env rfl).symm

/-- The failure that a path gives for a file other than the one that is written. -/
lemma filter_failureAt_rewrite (h : env.root.at? names = some (.file old)) (content : ByteArray)
    (parse : Parser) (p : Path) :
    (failureAt (env.rewrite names content) parse p).filter (fun e => !env.leadsTo names ⟨e.1⟩) =
      (failureAt env parse p).filter (fun e => !env.leadsTo names ⟨e.1⟩) := by
  cases hp : env.leadsTo names ⟨env.relativize p⟩ with
  | false =>
    unfold failureAt
    rw [checkFile_rewrite h content parse hp]
    rfl
  | true =>
    have hnone : ∀ env' : Environment, env'.relativize p = env.relativize p →
        (failureAt env' parse p).filter (fun e => !env.leadsTo names ⟨e.1⟩) = none := by
      intro env' hname
      unfold failureAt
      cases (checkFile env' parse p).value with
      | ok ds => rfl
      | error f => simp [hname, hp]
    exact (hnone (env.rewrite names content) rfl).trans (hnone env rfl).symm

/-- Writing to one file changes no diagnostic of any other file. -/
lemma diagnosticsOf_rewrite (h : env.root.at? names = some (.file old)) (content : ByteArray)
    (parse : Parser) (ps : List Path) :
    (diagnosticsOf (env.rewrite names content) parse ps).filter
        (fun d => !env.leadsTo names d.filename) =
      (diagnosticsOf env parse ps).filter (fun d => !env.leadsTo names d.filename) := by
  unfold diagnosticsOf Diagnostic.sort
  rw [filter_mergeSort Diagnostic.compare, filter_mergeSort Diagnostic.compare,
    Outcome.diagnostics_ofPaths, Outcome.diagnostics_ofPaths, List.filter_flatMap,
    List.filter_flatMap]
  simp only [filter_diagnosticsAt_rewrite h]

/-- Writing to one file changes no failure of any other file. -/
lemma failuresOf_rewrite (h : env.root.at? names = some (.file old)) (content : ByteArray)
    (parse : Parser) (ps : List Path) :
    (failuresOf (env.rewrite names content) parse ps).filter
        (fun e => !env.leadsTo names ⟨e.1⟩) =
      (failuresOf env parse ps).filter (fun e => !env.leadsTo names ⟨e.1⟩) := by
  have hsort := filter_mergeSort (compareOn (Prod.fst : String × Failure → String))
    (fun e => !env.leadsTo names ⟨e.1⟩)
  unfold failuresOf CheckOptions.sortFailures
  rw [Outcome.failures_ofPaths, Outcome.failures_ofPaths]
  refine (hsort _).trans (Eq.trans ?_ (hsort _).symm)
  rw [List.filter_filterMap, List.filter_filterMap]
  simp only [filter_failureAt_rewrite h]

end Rewrite

/-! ### What decides the status -/

section Status

variable {env : Environment} {parse : Parser}

/-- A check of a tree whose `for` statements all have bodies does not fail. -/
lemma exists_checkNode_eq_ok (source : String) {t : Tree}
    (hbody : ∀ n ∈ (Node.ofTree t).preorder, n.lacksBody = false) :
    ∃ found, (checkNode source (Node.ofTree t)).value = .ok found := by
  have hcomplete : (Node.ofTree t).Complete := fun n hn => hbody n hn.mem_preorder
  cases hfile : (Suppression.ofTree source (Node.ofTree t).focus).wholeFile with
  | true => exact ⟨[], checkNode_value_of_wholeFile hfile⟩
  | false => exact ⟨_, (checkNode_value hfile).trans (if_pos hcomplete)⟩

/-- A file cannot be checked if it cannot be read or if its text cannot be checked. -/
lemma checkFile_eq_error_iff (p : Path) :
    (∃ f, (checkFile env parse p).value = .error f) ↔
      (∃ e, env.readText ⟨env.relativize p⟩ = .error e) ∨
        ∃ source, env.readText ⟨env.relativize p⟩ = .ok source ∧
          ∃ c, (checkText parse ⟨env.relativize p⟩ source).value = .error c := by
  unfold checkFile
  cases hread : env.readText ⟨env.relativize p⟩ with
  | error e => simp [hread]
  | ok source =>
    cases hcheck : (checkText parse ⟨env.relativize p⟩ source).value with
    | error c => simp [hread, hcheck]
    | ok ds => simp [hread, hcheck]

variable (hparse : ∀ language source t, parse language source = some t →
  ∀ n ∈ (Node.ofTree t).preorder, n.lacksBody = false)
include hparse

/-- A text cannot be checked if it has no language or syntax errors. -/
lemma checkText_eq_error_iff (file : Path) (source : String) :
    (∃ c, (checkText parse file source).value = .error c) ↔
      Language.ofPath? file = none ∨
        ∃ language, Language.ofPath? file = some language ∧ parse language source = none := by
  unfold checkText
  cases hlanguage : Language.ofPath? file with
  | none => exact ⟨fun _ => .inl rfl, fun _ => ⟨_, rfl⟩⟩
  | some language =>
    cases htree : parse language source with
    | none => simp [htree]
    | some t =>
      obtain ⟨found, hfound⟩ := exists_checkNode_eq_ok source (hparse language source t htree)
      simp [htree, hfound]

/-- A file cannot be checked for one of three reasons. -/
lemma exists_failure_iff (p : Path) :
    (∃ f, (checkFile env parse p).value = .error f) ↔ Uncheckable env parse p := by
  simp only [checkFile_eq_error_iff, checkText_eq_error_iff hparse]
  constructor
  · rintro (⟨e, he⟩ | ⟨source, hread, hlanguage | ⟨language, hlanguage, htree⟩⟩)
    · exact .unreadable e he
    · exact .unsupported hlanguage
    · exact .malformed source language hread hlanguage htree
  · rintro (⟨e, he⟩ | hlanguage | ⟨source, language, hread, hlanguage, htree⟩)
    · exact .inl ⟨e, he⟩
    · cases hread : env.readText ⟨env.relativize p⟩ with
      | error e => exact .inl ⟨e, rfl⟩
      | ok source => exact .inr ⟨source, rfl, .inl hlanguage⟩
    · exact .inr ⟨source, hread, .inr ⟨language, hlanguage, htree⟩⟩

/-- Some file fails exactly if some file cannot be checked. -/
lemma failures_ofPaths_ne_nil_iff (ps : List Path) :
    Outcome.failures (Outcome.ofPaths env parse ps).value ≠ [] ↔
      ∃ p ∈ ps, Uncheckable env parse p := by
  have hsome : ∀ p, failureAt env parse p ≠ none ↔ Uncheckable env parse p := by
    intro p
    rw [← exists_failure_iff hparse, failureAt]
    cases (checkFile env parse p).value with
    | ok ds => simp
    | error f => simp
  rw [Outcome.failures_ofPaths, ne_eq, List.filterMap_eq_nil_iff]
  simp only [← hsome, not_forall, exists_prop]

end Status

namespace CheckOptions

/-- There are no diagnostics in the report if the checks have none. -/
lemma diagnosticsOf_eq_nil_iff (env : Environment) (parse : Parser) (ps : List Path) :
    diagnosticsOf env parse ps = [] ↔
      Outcome.diagnostics (Outcome.ofPaths env parse ps).value = [] := by
  rw [← List.length_eq_zero_iff, diagnosticsOf, Diagnostic.sort, List.length_mergeSort,
    List.length_eq_zero_iff]

/-- The status tells how the check of some files went: `error` if one of them cannot be checked,
`failure` if there is none of these but some diagnostic, `success` otherwise. -/
def Tells (env : Environment) (parse : Parser) (checked : List Path) (status : ExitStatus) : Prop :=
  (status = .error ↔ ∃ p ∈ checked, Uncheckable env parse p) ∧
    (status = .failure ↔
      (¬∃ p ∈ checked, Uncheckable env parse p) ∧ diagnosticsOf env parse checked ≠ []) ∧
    (status = .success ↔
      (¬∃ p ∈ checked, Uncheckable env parse p) ∧ diagnosticsOf env parse checked = [])

/-- The status tells of failures and of findings. -/
lemma tells_statusOf {env : Environment} {parse : Parser}
    (hparse : ∀ language source t, parse language source = some t →
      ∀ n ∈ (Node.ofTree t).preorder, n.lacksBody = false) (ps : List Path) :
    Tells env parse ps (statusOf (Outcome.ofPaths env parse ps).value) := by
  unfold Tells
  simp only [← failures_ofPaths_ne_nil_iff hparse, not_not, ne_eq, diagnosticsOf_eq_nil_iff]
  unfold statusOf
  cases Outcome.failures (Outcome.ofPaths env parse ps).value <;>
    cases Outcome.diagnostics (Outcome.ofPaths env parse ps).value <;> simp

/-- Let the parser give every `for` statement its body.  Then each path of every configuration adds
to the report all its diagnostics or one failure.  Writing other bytes to one file changes nothing
that is reported on the others.  And if a run that does not give up has found a file, its status
tells how the check of the files went, whatever the format of the report. -/
theorem isolated_failures_decide_status (env : Environment) (parse : Parser)
    (hparse : ∀ language source t, parse language source = some t →
      ∀ n ∈ (Node.ofTree t).preorder, n.lacksBody = false) :
    (∀ before p after, AddsToOneSide env parse before p after) ∧
    (∀ names old content ps, env.root.at? names = some (.file old) →
      (diagnosticsOf (env.rewrite names content) parse ps).filter
          (fun d => !env.leadsTo names d.filename) =
        (diagnosticsOf env parse ps).filter (fun d => !env.leadsTo names d.filename) ∧
      (failuresOf (env.rewrite names content) parse ps).filter
          (fun e => !env.leadsTo names ⟨e.1⟩) =
        (failuresOf env parse ps).filter (fun e => !env.leadsTo names ⟨e.1⟩) ∧
      ∀ p, env.leadsTo names p = true → (env.rewrite names content).readBytes p = .ok content) ∧
    (∀ color elapsed (o : CheckOptions) r, (o.run env parse color elapsed).value = .ok r →
      ∃ used, o.usedSettings env = .ok used ∧ (o.found env used ≠ [] →
        ∃ checked, checked = Selection.sortPaths (o.found env used) ∧
          o.reported env parse used = diagnosticsOf env parse checked ∧
          o.failed env parse used = failuresOf env parse checked ∧
          Tells env parse checked r.status ∧
          ∀ format, ∃ r', (run env parse color elapsed { o with format }).value = .ok r' ∧
            r'.status = r.status)) := by
  refine ⟨addsToOneSide env parse, fun names old content ps h => ?_,
    fun color elapsed o r hrun => ?_⟩
  · exact ⟨diagnosticsOf_rewrite h content parse ps, failuresOf_rewrite h content parse ps,
      fun p hp => Environment.readBytes_rewrite_of_leadsTo h content hp⟩
  · obtain ⟨used, hused, ⟨hnone, -⟩ | ⟨hfound, -, -, hstatus⟩⟩ := run_eq_ok hrun
    · exact ⟨used, hused, fun hfound => absurd hnone hfound⟩
    · refine ⟨used, hused, fun _ => ⟨_, rfl, rfl, rfl, ?_, fun format => ?_⟩⟩
      · rw [hstatus]
        exact tells_statusOf hparse _
      · -- The format has no part in finding files and in checking them.
        have hrun' := run_value env parse color elapsed { o with format }
        have hused' : usedSettings env { o with format } = .ok used := hused
        have hfound' : found env used { o with format } ≠ [] := hfound
        rw [hused'] at hrun'
        exact ⟨_, hrun'.trans (if_neg hfound'), hstatus.symm⟩

/-- Bytes that are no text. -/
def brokenBytes : ByteArray := ⟨#[0xff]⟩

/-- The second file of `loopsWorld` has syntax errors. -/
lemma uncheckable_loopsWorld : Uncheckable loopsWorld nestedParser ⟨"/src/b.js"⟩ :=
  .malformed "(" .javaScript (eq_ok_of_toOption (by decide +kernel)) (by decide +kernel)
    (by decide +kernel)

/-- In `loopsWorld` one file has two loops to report and the other one has syntax errors, so the
status of the run is `error`.  If the latter gets bytes that are no text, both diagnostics stay. -/
theorem isolated_failures_loopsWorld :
    (∀ language source t, nestedParser language source = some t →
      ∀ n ∈ (Node.ofTree t).preorder, n.lacksBody = false) ∧
      (∃ r, (loopsOptions.run loopsWorld nestedParser false "0s").value = .ok r ∧
        r.status = .error) ∧
      ((diagnosticsOf (loopsWorld.rewrite ["src", "b.js"] brokenBytes) nestedParser
        [⟨"/src/a.ts"⟩, ⟨"/src/b.js"⟩]).filter
          (fun d => !loopsWorld.leadsTo ["src", "b.js"] d.filename)).length = 2 := by
  have hparse : ∀ language source t, nestedParser language source = some t →
      ∀ n ∈ (Node.ofTree t).preorder, n.lacksBody = false := by
    intro language source t ht
    rw [nestedParser] at ht
    split at ht
    · obtain rfl := Option.some.inj ht
      decide +kernel
    · cases ht
  obtain ⟨-, hrewrite, hstatus⟩ := isolated_failures_decide_status loopsWorld nestedParser hparse
  refine ⟨hparse, ?_, ?_⟩
  · obtain ⟨r, hrun⟩ := exists_run_loopsWorld
    obtain ⟨used, hused, hchecked⟩ := hstatus false "0s" loopsOptions r hrun
    obtain rfl : none = used := by
      rw [usedSettings_loopsWorld] at hused
      exact Except.ok.inj hused
    obtain ⟨checked, rfl, -, -, ⟨herror, -⟩, -⟩ := hchecked (by rw [found_loopsWorld]; simp)
    refine ⟨r, hrun, herror.mpr ⟨_, ?_, uncheckable_loopsWorld⟩⟩
    rw [sortPaths_found_loopsWorld]
    simp
  · have hfile : loopsWorld.root.at? ["src", "b.js"] = some (.file "(".toUTF8) := rfl
    have hperm := diagnosticsOf_perm loopsWorld nestedParser [⟨"/src/a.ts"⟩, ⟨"/src/b.js"⟩]
    rw [(hrewrite _ _ brokenBytes _ hfile).1, (hperm.filter _).length_eq]
    decide +kernel

end CheckOptions
end LoopLint
