import LoopLint.Proofs.Command.Schedule
import LoopLint.Proofs.Discovery.Exclusion

/-!
# The languages of found files

The language of a file is looked at twice: a search takes a file for a source file by its path from
the root, and a check chooses the grammar by the path as it is seen from the working directory.  The
two agree.  A language is read off the last name of a path, and however the path is normalized and
shortened, its last name stays (`Path.fileName?_relativize`).

So a file that a search takes for a source file is checked in the language that it was taken for
(`CheckedIn`), and only a file that is given by name can turn out to have no language.
-/

namespace LoopLint

/-! ### The last name of a path -/

namespace Path

/-- A path has a file name if it ends with a name. -/
lemma fileName?_eq_some_iff {p : Path} {s : String} :
    p.fileName? = some s ↔ p.components.getLast? = some (.name s) := by
  unfold fileName?
  constructor
  · intro h
    split at h
    · next n hlast =>
      obtain rfl : n = s := by simpa using h
      exact hlast
    · cases h
  · intro h
    rw [h]

/-- A way that ends with a name ends there. -/
lemma getLast?_walk {cs : List Component} {s : String} (h : cs.getLast? = some (.name s)) :
    (walk cs).getLast? = some s := by
  obtain ⟨init, rfl⟩ := List.getLast?_eq_some_iff.mp h
  rw [walk, List.foldl_append, List.foldl_cons, List.foldl_nil, step, List.reverse_cons,
    List.getLast?_concat]

/-- The last name of a path is the last of the names on the way to it. -/
lemma getLast?_namesFrom (d : Path) {p : Path} {s : String} (h : p.fileName? = some s) :
    (namesFrom d p).getLast? = some s := by
  rw [fileName?_eq_some_iff] at h
  apply getLast?_walk
  rw [List.getLast?_append, h, Option.some_or]

/-- **A path keeps its last name when it is shortened.** -/
theorem fileName?_relativize (directory : Option Path) {p : Path} {s : String}
    (h : p.fileName? = some s) : fileName? ⟨relativize directory p⟩ = some s := by
  cases directory with
  | none => exact h
  | some d =>
    rcases relativize_cases d p with ⟨rest, hne, hbelow, hshort⟩ | hshort
    · have hnames : ∀ n ∈ rest, IsName n := by
        intro n hn
        apply isName_of_mem_namesFrom (d := d) (p := p)
        rw [hbelow]
        exact List.mem_append_right _ hn
      have hlast := getLast?_namesFrom d h
      rw [hbelow, List.getLast?_append_of_ne_nil _ hne] at hlast
      rw [hshort, fileName?_eq_some_iff, components_intercalate hnames, List.getLast?_map,
        hlast]
      rfl
    · rw [hshort]
      exact h

/-- The extension is that of the last name. -/
lemma extension?_congr {p q : Path} (h : p.fileName? = q.fileName?) :
    p.extension? = q.extension? := by
  rw [extension?, extension?, h]

end Path

namespace Language

/-- **A path that ends with a name keeps its language when it is shortened**, or stays without one.
-/
theorem ofPath?_relativize (env : Environment) {p : Path} {s : String}
    (h : p.fileName? = some s) : ofPath? ⟨env.relativize p⟩ = ofPath? p := by
  have hkept : Path.fileName? ⟨env.relativize p⟩ = p.fileName? := by
    rw [h]
    exact Path.fileName?_relativize env.directory h
  rw [ofPath?, ofPath?, Path.extension?_congr hkept]

/-- Only a path that ends with a name has a language. -/
lemma exists_fileName?_of_ofPath? {p : Path} {l : Language} (h : ofPath? p = some l) :
    ∃ s, p.fileName? = some s := by
  obtain ⟨ext, hext, -⟩ := Option.bind_eq_some_iff.mp h
  obtain ⟨s, hs, -⟩ := Option.bind_eq_some_iff.mp hext
  exact ⟨s, hs⟩

/-- A short name is of the language of its path. -/
lemma ofPath?_relativize_of_eq_some (env : Environment) {p : Path} {l : Language}
    (h : ofPath? p = some l) : ofPath? ⟨env.relativize p⟩ = some l := by
  obtain ⟨s, hs⟩ := exists_fileName?_of_ofPath? h
  rw [ofPath?_relativize env hs, h]

end Language

/-! ### Checking in a language -/

/-- The file at a path is checked in a language, whatever the parser. -/
structure CheckedIn (env : Environment) (l : Language) (p : Path) : Prop where
  /-- The check does not fail for want of a language. -/
  supported : ∀ parse f file, (checkFile env parse p).value = .error f →
    f.cause ≠ .unsupportedLanguage file
  /-- A text that is not of the language has syntax errors. -/
  refused : ∀ parse source, env.readText ⟨env.relativize p⟩ = .ok source →
    parse l source = none → ∃ f, (checkFile env parse p).value = .error f ∧
      f.cause = .syntaxErrors ⟨env.relativize p⟩
  /-- Any other text gives what is found in its tree. -/
  parsed : ∀ parse source t found, env.readText ⟨env.relativize p⟩ = .ok source →
    parse l source = some t → (checkNode source (Node.ofTree t)).value = .ok found →
      (checkFile env parse p).value =
        .ok (found.map fun d => { d with filename := ⟨env.relativize p⟩ })
  /-- The grammars of the other languages do not matter. -/
  alone : ∀ parse parse', parse l = parse' l → checkFile env parse p = checkFile env parse' p

section Check

variable {l : Language} {file : Path} {parse parse' : Parser} {source : String}

/-- The check of a text depends only on the parser for its language. -/
lemma checkText_of_parse_congr (hlanguage : Language.ofPath? file = some l)
    (h : parse l source = parse' l source) :
    checkText parse file source = checkText parse' file source := by
  unfold checkText
  rw [hlanguage]
  simp only [h]

/-- A text that cannot be parsed has syntax errors. -/
lemma value_checkText_of_refused (hlanguage : Language.ofPath? file = some l)
    (h : parse l source = none) :
    (checkText parse file source).value = .error (.syntaxErrors file) := by
  unfold checkText
  rw [hlanguage]
  simp only [h, Logged.value_pure]

/-- A text that can be parsed has the findings in its tree, with its own name. -/
lemma value_checkText_of_parsed (hlanguage : Language.ofPath? file = some l) {t : Tree}
    {found : List Diagnostic} (h : parse l source = some t)
    (hfound : (checkNode source (Node.ofTree t)).value = .ok found) :
    (checkText parse file source).value =
      .ok (found.map fun d => { d with filename := file }) := by
  unfold checkText
  rw [hlanguage]
  simp only [h, Logged.value_bind, hfound, Logged.value_pure]

/-- A text fails for want of a language only if its file has none. -/
lemma ofPath?_eq_none_of_unsupported {file' : Path}
    (h : (checkText parse file source).value = .error (.unsupportedLanguage file')) :
    Language.ofPath? file = none := by
  unfold checkText at h
  cases hlanguage : Language.ofPath? file with
  | none => rfl
  | some l =>
    simp only [hlanguage] at h
    cases hparse : parse l source with
    | none => simp [hparse] at h
    | some t => cases hnode : (checkNode source (Node.ofTree t)).value <;> simp [hparse, hnode] at h

variable {env : Environment} {p : Path}

/-- The cause of a failed check is that the file cannot be read, or what is wrong with its text. -/
lemma cause_of_checkFile_eq_error {f : Failure} (h : (checkFile env parse p).value = .error f) :
    (∃ e, f.cause = .file e) ∨ ∃ source,
      (checkText parse ⟨env.relativize p⟩ source).value = .error f.cause := by
  unfold checkFile at h
  cases hread : env.readText ⟨env.relativize p⟩ with
  | error e =>
    simp only [hread, Logged.value_pure, Except.error.injEq] at h
    exact .inl ⟨e, by rw [← h]; rfl⟩
  | ok source =>
    refine .inr ⟨source, ?_⟩
    cases hcheck : (checkText parse ⟨env.relativize p⟩ source).value with
    | ok ds => simp [hread, hcheck] at h
    | error c =>
      simp only [hread, Logged.value_bind, hcheck, Logged.value_pure, Except.error.injEq] at h
      rw [← h]
      rfl

/-- A file that has a language is checked in it. -/
theorem checkedIn_of_ofPath? (h : Language.ofPath? p = some l) : CheckedIn env l p := by
  have hshort := Language.ofPath?_relativize_of_eq_some env h
  constructor
  case supported =>
    intro parse f file herror hcause
    rcases cause_of_checkFile_eq_error herror with ⟨e, he⟩ | ⟨source, htext⟩
    · rw [he] at hcause
      cases hcause
    · rw [hcause] at htext
      rw [ofPath?_eq_none_of_unsupported htext] at hshort
      cases hshort
  case refused =>
    intro parse source hread hparse
    unfold checkFile
    simp only [hread, Logged.value_bind, value_checkText_of_refused hshort hparse]
    exact ⟨_, rfl, rfl⟩
  case parsed =>
    intro parse source t found hread hparse hfound
    unfold checkFile
    simp only [hread, Logged.value_bind, value_checkText_of_parsed hshort hparse hfound]
    rfl
  case alone =>
    intro parse parse' hsame
    have htext : checkText parse ⟨env.relativize p⟩ = checkText parse' ⟨env.relativize p⟩ := by
      funext source
      exact checkText_of_parse_congr hshort (congrFun hsame source)
    unfold checkFile
    simp only [htext]

end Check

/-! ### Found files -/

/-- A run fails for want of a language only at a file that was given by name. -/
lemma CheckOptions.given_of_unsupported {env : Environment} {parse : Parser}
    {used : Option FoundSettings} {o : CheckOptions} {name : String} {f : Failure} {file : Path}
    (hfailed : (name, f) ∈ o.failed env parse used) (hcause : f.cause = .unsupportedLanguage file) :
    ∃ q ∈ o.paths, name = env.relativize (env.normalize q) ∧
      (env.normalize q).isSource = false ∧
      ∃ e, env.find (env.normalize q) = .ok e ∧ e.isDirectory = false := by
  obtain ⟨p, hp, hfailure⟩ := mem_failuresOf_iff.mp hfailed
  have hfound := mem_foundFiles_iff.mp (Selection.mem_of_mem_sortPaths hp)
  unfold failureAt at hfailure
  cases hcheck : (checkFile env parse p).value with
  | ok ds =>
    rw [hcheck] at hfailure
    cases hfailure
  | error g =>
    rw [hcheck] at hfailure
    obtain ⟨rfl, rfl⟩ : env.relativize p = name ∧ g = f := by simpa using hfailure
    have hsource : p.isSource = false := by
      by_contra htrue
      obtain ⟨l, hl⟩ := Option.isSome_iff_exists.mp (Bool.not_eq_false _ ▸ htrue)
      exact (checkedIn_of_ofPath? hl).supported parse g file hcheck hcause
    cases (mem_discoverFiles_iff env used o.noDefaultExclude o.paths p).mp hfound with
    | @given q e hq hfind hfile => exact ⟨q, hq, rfl, hsource, e, hfind, hfile⟩
    | walked hq hfind hwalked hfinds =>
      rw [hsource] at hwalked
      cases hwalked

/-- **A search and a check agree on the language of a file.**  A path keeps its language when it is
shortened.  So what a search takes for a source file is checked in the language that it was taken
for, and of the files that a run finds only those can turn out to have no language that were given
by name. -/
theorem found_files_keep_their_language (env : Environment) :
    (∀ p l, Language.ofPath? p = some l → Language.ofPath? ⟨env.relativize p⟩ = some l) ∧
      (∀ p s, p.fileName? = some s →
        Language.ofPath? ⟨env.relativize p⟩ = Language.ofPath? p) ∧
      (∀ p, p.isSource = true → ∃ l, Language.ofPath? p = some l ∧ CheckedIn env l p) ∧
      (∀ settings noDefault paths p,
        .ok p ∈ (discoverFiles env settings noDefault paths).value →
          (∃ q ∈ paths, p = env.normalize q ∧ ∃ e, env.find p = .ok e ∧ e.isDirectory = false) ∨
            ∃ l, Language.ofPath? p = some l ∧ CheckedIn env l p) ∧
      ∀ (o : CheckOptions) parse used name f file, (name, f) ∈ o.failed env parse used →
        f.cause = .unsupportedLanguage file →
          ∃ q ∈ o.paths, name = env.relativize (env.normalize q) ∧
            (env.normalize q).isSource = false ∧
            ∃ e, env.find (env.normalize q) = .ok e ∧ e.isDirectory = false := by
  have hchecked : ∀ p, p.isSource = true →
      ∃ l, Language.ofPath? p = some l ∧ CheckedIn env l p := by
    intro p hp
    obtain ⟨l, hl⟩ := Option.isSome_iff_exists.mp hp
    exact ⟨l, hl, checkedIn_of_ofPath? hl⟩
  refine ⟨?_, ?_, hchecked, ?_, ?_⟩
  · intro p l h
    exact Language.ofPath?_relativize_of_eq_some env h
  · intro p s h
    exact Language.ofPath?_relativize env h
  · intro settings noDefault paths p hfound
    cases (mem_discoverFiles_iff env settings noDefault paths p).mp hfound with
    | @given q e hq hfind hfile => exact .inl ⟨q, hq, rfl, e, hfind, hfile⟩
    | walked hq hfind hsource hfinds => exact .inr (hchecked p hsource)
  · intro o parse used name f file hfailed hcause
    exact CheckOptions.given_of_unsupported hfailed hcause

/-- Below the working directory, a declaration file behind a link is TypeScript under its short name
too, and a file with a text that cannot be parsed is said to have syntax errors. -/
theorem found_files_keep_their_language_linkedWorld :
    Language.ofPath? ⟨"/../work//./alias/b/../.a.d.cts/."⟩ = some .typeScript ∧
      linkedWorld.relativize ⟨"/../work//./alias/b/../.a.d.cts/."⟩ = "alias/.a.d.cts" ∧
      Language.ofPath? ⟨"alias/.a.d.cts"⟩ = some .typeScript ∧
      ∃ f, (checkFile linkedWorld (fun _ _ => none) ⟨"/work/src/a.js"⟩).value = .error f ∧
        f.cause = .syntaxErrors ⟨"src/a.js"⟩ := by
  obtain ⟨hkeeps, -, hchecked, -⟩ := found_files_keep_their_language linkedWorld
  have hshort : linkedWorld.relativize ⟨"/../work//./alias/b/../.a.d.cts/."⟩ =
      "alias/.a.d.cts" := by decide
  have hlanguage : Language.ofPath? ⟨"/../work//./alias/b/../.a.d.cts/."⟩ = some .typeScript := by
    decide
  refine ⟨hlanguage, hshort, ?_, ?_⟩
  · have h := hkeeps _ _ hlanguage
    rwa [hshort] at h
  · obtain ⟨l, -, hl⟩ := hchecked ⟨"/work/src/a.js"⟩ (by decide)
    have hname : linkedWorld.relativize ⟨"/work/src/a.js"⟩ = "src/a.js" := by decide
    have hread : linkedWorld.readText ⟨"src/a.js"⟩ = .ok "(" := by decide +kernel
    have hrefused := hl.refused (fun _ _ => none) "("
    rw [hname] at hrefused
    exact hrefused hread rfl

end LoopLint
