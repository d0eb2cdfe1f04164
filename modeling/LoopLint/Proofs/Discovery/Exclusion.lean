import LoopLint.Proofs.Discovery.Reach
import LoopLint.Proofs.Environment.Straight

/-!
# Exclude patterns

Exclude patterns come from the settings and from a default list, and act on all that a walk meets
below the given paths.  How a single pattern is read does not matter for what is said here, so a
`Matcher` is any way to read them, and `Discovered` says which files there are for any of them.  The
program reads patterns as globs, and what it finds is `Discovered` for these
(`mem_discoverFiles_iff`).

All follows from two facts about a walk: with fewer exclusions it finds no fewer files, and whether
an entry is excluded depends only on which patterns there are.  `OnlyRemoves` collects what this
means for the patterns, for the switches of the default list, and for the files that are given by
name.
-/

namespace LoopLint

/-! ### Reading patterns -/

/-- A way to read exclude patterns.  A pattern in a directory speaks of some entries, each given by
its path and by whether it is a directory; or it cannot be read. -/
abbrev Matcher := Path → String → Option (Path → Bool → Bool)

namespace Matcher

/-- Some of the patterns in a directory speaks of an entry.  Those that cannot be read do not. -/
def Excludes (m : Matcher) (place : Path) (patterns : List String) (p : Path)
    (isDirectory : Bool) : Prop :=
  ∃ pattern ∈ patterns, ∃ speaks, m place pattern = some speaks ∧ speaks p isDirectory = true

/-- More patterns exclude more. -/
lemma Excludes.mono {m : Matcher} {place p : Path} {patterns patterns' : List String}
    {isDirectory : Bool} (hsubset : patterns ⊆ patterns')
    (h : m.Excludes place patterns p isDirectory) : m.Excludes place patterns' p isDirectory := by
  obtain ⟨pattern, hpattern, hspeaks⟩ := h
  exact ⟨pattern, hsubset hpattern, hspeaks⟩

/-- Patterns are read as globs for paths below their directory. -/
def globs : Matcher := fun place pattern =>
  ((Exclusion.rule pattern).toOption.bind id).map fun rule p isDirectory =>
    rule.applies isDirectory (String.ofList (IgnoreRules.inside place p)).toUTF8.toList

end Matcher

namespace FoundSettings

/-- The exclude patterns of the settings. -/
def ownPatterns (s : FoundSettings) : List String :=
  s.settings.exclude.getD []

/-- The settings with other exclude patterns. -/
def excluding (s : FoundSettings) (patterns : List String) : FoundSettings :=
  { s with settings := { s.settings with exclude := some patterns } }

/-- The settings with the default patterns switched off. -/
def withoutDefaults (s : FoundSettings) : FoundSettings :=
  { s with settings := { s.settings with defaultExclude := some false } }

end FoundSettings

namespace Exclusion

/-- The directory that the patterns are placed in. -/
def placeOf (settings : Option FoundSettings) : Path :=
  (settings.map (·.directory)).getD ⟨"."⟩

/-- The program excludes what some pattern speaks of, read as a glob. -/
lemma excludes_ofSettings_iff (settings : Option FoundSettings) (noDefault : Bool) (p : Path)
    (isDirectory : Bool) : (ofSettings settings noDefault).value.excludes p isDirectory = true ↔
      Matcher.globs.Excludes (placeOf settings) (patterns settings noDefault) p isDirectory := by
  simp only [ofSettings, ofPatterns, excludes, List.any_eq_true, List.mem_filterMap,
    Matcher.Excludes, Matcher.globs, Option.map_eq_some_iff, placeOf]
  constructor
  · rintro ⟨rule, ⟨pattern, hpattern, hrule⟩, happlies⟩
    exact ⟨pattern, hpattern, _, ⟨rule, hrule, rfl⟩, happlies⟩
  · rintro ⟨pattern, hpattern, _, ⟨rule, hrule, rfl⟩, happlies⟩
    exact ⟨rule, ⟨pattern, hpattern, hrule⟩, happlies⟩

/-- The patterns that apply: those of the settings, and the default ones unless they are switched
off. -/
lemma mem_patterns_iff (settings : Option FoundSettings) (noDefault : Bool) (pattern : String) :
    pattern ∈ patterns settings noDefault ↔
      pattern ∈ (settings.bind (·.settings.exclude)).getD [] ∨
        noDefault = false ∧
          settings.any (fun s => s.settings.defaultExclude == some false) = false ∧
          pattern ∈ defaultPatterns := by
  unfold patterns
  rw [List.mem_append]
  cases noDefault with
  | true => simp
  | false => cases settings.any fun s => s.settings.defaultExclude == some false <;> simp

/-- More patterns in the settings are more patterns in force. -/
lemma patterns_subset_of_subset (s : FoundSettings) (noDefault : Bool) {P Q : List String}
    (h : P ⊆ Q) :
    patterns (some (s.excluding P)) noDefault ⊆ patterns (some (s.excluding Q)) noDefault := by
  intro pattern hpattern
  rw [mem_patterns_iff] at hpattern ⊢
  exact hpattern.imp_left fun hmem => h hmem

/-- Switching the default patterns off by an option drops patterns only. -/
lemma patterns_noDefault_subset (settings : Option FoundSettings) (noDefault : Bool) :
    patterns settings true ⊆ patterns settings noDefault := by
  intro pattern hpattern
  rw [mem_patterns_iff] at hpattern ⊢
  rcases hpattern with hown | ⟨hdefault, -⟩
  · exact .inl hown
  · cases hdefault

/-- Switching the default patterns off in the settings drops patterns only. -/
lemma patterns_withoutDefaults_subset (s : FoundSettings) (noDefault : Bool) :
    patterns (some s.withoutDefaults) noDefault ⊆ patterns (some s) noDefault := by
  intro pattern hpattern
  rw [mem_patterns_iff] at hpattern ⊢
  rcases hpattern with hown | ⟨-, hdefault, -⟩
  · exact .inl hown
  · cases hdefault

/-- In one place, the more patterns there are the more is excluded. -/
lemma covers_of_subset {settings settings' : Option FoundSettings} {noDefault noDefault' : Bool}
    (hplace : placeOf settings = placeOf settings')
    (hsubset : patterns settings' noDefault' ⊆ patterns settings noDefault) :
    (ofSettings settings noDefault).value.Covers (ofSettings settings' noDefault').value := by
  intro p isDirectory hexcludes
  rw [excludes_ofSettings_iff] at hexcludes ⊢
  rw [hplace]
  exact hexcludes.mono hsubset

end Exclusion

/-! ### The files that are found -/

/-- The files for some paths, given the settings, whether the default patterns are switched off, and
how patterns are read: a path that leads to a file gives that file, and one that leads to a
directory gives the source files that a walk finds there. -/
inductive Discovered (env : Environment) (m : Matcher) (settings : Option FoundSettings)
    (noDefault : Bool) (paths : List Path) : Path → Prop
  | given {q : Path} {e : Entry} (hq : q ∈ paths) (hfind : env.find (env.normalize q) = .ok e)
      (hfile : e.isDirectory = false) :
      Discovered env m settings noDefault paths (env.normalize q)
  | walked {q p : Path} {es : List (String × Entry)} (hq : q ∈ paths)
      (hfind : env.find (env.normalize q) = .ok (.directory es)) (hsource : p.isSource = true)
      (hfinds : Visit.Finds env
        (m.Excludes (Exclusion.placeOf settings) (Exclusion.patterns settings noDefault))
        ((IgnoreScope.atStart env (env.normalize q)).1.enter env (env.normalize q))
        (env.normalize q) es p) :
      Discovered env m settings noDefault paths p

section Discovered

variable {env : Environment} {m : Matcher} {settings settings' : Option FoundSettings}
  {noDefault noDefault' : Bool} {paths : List Path} {p : Path}

/-- With fewer patterns in one place no fewer files are found. -/
theorem Discovered.anti (h : Discovered env m settings noDefault paths p)
    (hplace : Exclusion.placeOf settings' = Exclusion.placeOf settings)
    (hsubset : Exclusion.patterns settings' noDefault' ⊆ Exclusion.patterns settings noDefault) :
    Discovered env m settings' noDefault' paths p := by
  cases h with
  | given hq hfind hfile => exact .given hq hfind hfile
  | walked hq hfind hsource hfinds =>
    refine .walked hq hfind hsource (hfinds.anti fun p isDirectory hexcludes => ?_)
    rw [hplace] at hexcludes
    exact hexcludes.mono hsubset

variable (env settings noDefault paths p) in
/-- **The program finds the files that there are if patterns are globs.** -/
theorem mem_discoverFiles_iff :
    .ok p ∈ (discoverFiles env settings noDefault paths).value ↔
      Discovered env Matcher.globs settings noDefault paths p := by
  have hexcludes : (fun p isDirectory =>
        (Exclusion.ofSettings settings noDefault).value.excludes p isDirectory = true) =
      Matcher.globs.Excludes (Exclusion.placeOf settings)
        (Exclusion.patterns settings noDefault) := by
    funext p isDirectory
    exact propext (Exclusion.excludes_ofSettings_iff settings noDefault p isDirectory)
  rw [discoverFiles_value, List.mem_filterMap]
  unfold visits
  simp only [Visit.result?_eq_ok_iff, List.mem_flatMap]
  constructor
  · rintro ⟨_, ⟨q, hq, hv⟩, given, rfl, hresult⟩
    rw [Visit.mem_ofStart_iff, hexcludes] at hv
    rcases hv with ⟨rfl, rfl, e, hfind, hfile⟩ | ⟨rfl, es, hfind, hfinds⟩
    · exact .given hq hfind hfile
    · exact .walked hq hfind (hresult.resolve_left Bool.false_ne_true) hfinds
  · intro h
    cases h with
    | @given q e hq hfind hfile =>
      refine ⟨_, ⟨q, hq, ?_⟩, true, rfl, .inl rfl⟩
      exact Visit.mem_ofStart_iff.mpr (.inl ⟨rfl, rfl, e, hfind, hfile⟩)
    | @walked q p es hq hfind hsource hfinds =>
      refine ⟨_, ⟨q, hq, ?_⟩, false, rfl, .inr hsource⟩
      rw [← hexcludes] at hfinds
      exact Visit.mem_ofStart_iff.mpr (.inr ⟨rfl, es, hfind, hfinds⟩)

/-- With more patterns the program gives the same results, with fewer between them. -/
lemma value_discoverFiles_sublist (env : Environment) (paths : List Path)
    (hplace : Exclusion.placeOf settings = Exclusion.placeOf settings')
    (hsubset : Exclusion.patterns settings' noDefault' ⊆ Exclusion.patterns settings noDefault) :
    (discoverFiles env settings noDefault paths).value.Sublist
      (discoverFiles env settings' noDefault' paths).value := by
  rw [discoverFiles_value, discoverFiles_value]
  exact (visits_sublist (Exclusion.covers_of_subset hplace hsubset) env paths).filterMap _

end Discovered

/-! ### Patterns only remove -/

/-- What exclude patterns may do to the files that are found, given how patterns are read. -/
structure OnlyRemoves (env : Environment) (m : Matcher)
    (found : Option FoundSettings → Bool → List Path → Path → Prop) : Prop where
  /-- More patterns add no file. -/
  append : ∀ (s : FoundSettings) P Q noDefault paths p,
    found (some (s.excluding (P ++ Q))) noDefault paths p →
      found (some (s.excluding P)) noDefault paths p
  /-- Settings that say nothing of patterns count as settings with none. -/
  unset : ∀ (s : FoundSettings) noDefault paths p,
    found (some (s.excluding s.ownPatterns)) noDefault paths p ↔ found (some s) noDefault paths p
  /-- The order of the patterns and their repetitions do not matter. -/
  congr : ∀ (s : FoundSettings) P Q noDefault paths p, (∀ pattern, pattern ∈ P ↔ pattern ∈ Q) →
    (found (some (s.excluding P)) noDefault paths p ↔
      found (some (s.excluding Q)) noDefault paths p)
  /-- Switching the default patterns off on the command line removes no file. -/
  noDefault : ∀ settings paths p, found settings false paths p → found settings true paths p
  /-- Switching the default patterns off in the settings removes no file. -/
  withoutDefaults : ∀ (s : FoundSettings) noDefault paths p, found (some s) noDefault paths p →
    found (some s.withoutDefaults) noDefault paths p
  /-- A file that is given by name is found. -/
  given : ∀ settings noDefault paths q e, q ∈ paths → env.find (env.normalize q) = .ok e →
    e.isDirectory = false → found settings noDefault paths (env.normalize q)
  /-- Any other file is a source file below a given directory, and no pattern speaks of it or of a
  directory between the two. -/
  other : ∀ settings noDefault paths p, found settings noDefault paths p →
    (∃ q ∈ paths, p = env.normalize q ∧ ∃ e, env.find p = .ok e ∧ e.isDirectory = false) ∨
      p.isSource = true ∧ ∃ q ∈ paths, ∃ es, env.find (env.normalize q) = .ok (.directory es) ∧
        Path.ClearWay
          (m.Excludes (Exclusion.placeOf settings) (Exclusion.patterns settings noDefault))
          (env.normalize q) p

/-- The files that are found get fewer with more patterns, and in no other way. -/
lemma onlyRemoves_discovered (env : Environment) (m : Matcher) :
    OnlyRemoves env m (Discovered env m) where
  append := by
    intro s P Q noDefault paths p h
    exact h.anti rfl (Exclusion.patterns_subset_of_subset s noDefault (List.subset_append_left P Q))
  unset := by
    intro s noDefault paths p
    -- The patterns are the same ones.
    constructor
    · intro h
      exact h.anti rfl (List.Subset.refl (Exclusion.patterns (some s) noDefault))
    · intro h
      exact h.anti rfl (List.Subset.refl (Exclusion.patterns (some s) noDefault))
  congr := by
    intro s P Q noDefault paths p hmem
    constructor
    · intro h
      exact h.anti rfl (Exclusion.patterns_subset_of_subset s noDefault fun x => (hmem x).mpr)
    · intro h
      exact h.anti rfl (Exclusion.patterns_subset_of_subset s noDefault fun x => (hmem x).mp)
  noDefault := by
    intro settings paths p h
    exact h.anti rfl (Exclusion.patterns_noDefault_subset settings false)
  withoutDefaults := by
    intro s noDefault paths p h
    exact h.anti rfl (Exclusion.patterns_withoutDefaults_subset s noDefault)
  given := by
    intro settings noDefault paths q e hq hfind hfile
    exact .given hq hfind hfile
  other := by
    intro settings noDefault paths p h
    cases h with
    | @given q e hq hfind hfile => exact .inl ⟨q, hq, rfl, e, hfind, hfile⟩
    | @walked q p es hq hfind hsource hfinds =>
      exact .inr ⟨hsource, q, hq, es, hfind, hfinds.clearWay⟩

/-- **Exclude patterns only remove files, and never one that is given by name.**  This holds of the
program, and of any other way to read patterns: what the program finds is `Discovered` for globs.
Its results as a list, errors included, are the same for the same patterns in another order.

A file is given by the normalized path.  If the path as it was given leads to a file without a link
on its way, then that is the file there. -/
theorem exclusion_only_removes (env : Environment) :
    OnlyRemoves env Matcher.globs
        (fun settings noDefault paths p =>
          .ok p ∈ (discoverFiles env settings noDefault paths).value) ∧
      (∀ (s : FoundSettings) P Q noDefault paths, (∀ pattern, pattern ∈ P ↔ pattern ∈ Q) →
        (discoverFiles env (some (s.excluding P)) noDefault paths).value =
          (discoverFiles env (some (s.excluding Q)) noDefault paths).value) ∧
      (∀ settings noDefault paths p,
        .ok p ∈ (discoverFiles env settings noDefault paths).value ↔
          Discovered env Matcher.globs settings noDefault paths p) ∧
      (∀ m, OnlyRemoves env m (Discovered env m)) ∧
      ∀ d, env.StandsIn d → ∀ q content, env.LeadsStraight d q →
        env.find q = .ok (.file content) →
        (env.normalize q).text.utf8ByteSize < Environment.pathLimit →
          env.find (env.normalize q) = .ok (.file content) := by
  refine ⟨?_, ?_, mem_discoverFiles_iff env, onlyRemoves_discovered env, ?_⟩
  · have hfound : (fun settings noDefault paths p =>
        .ok p ∈ (discoverFiles env settings noDefault paths).value) =
          Discovered env Matcher.globs := by
      funext settings noDefault paths p
      exact propext (mem_discoverFiles_iff env settings noDefault paths p)
    rw [hfound]
    exact onlyRemoves_discovered env Matcher.globs
  · intro s P Q noDefault paths hmem
    have hplace : Exclusion.placeOf (some (s.excluding P)) =
        Exclusion.placeOf (some (s.excluding Q)) := rfl
    apply List.Sublist.antisymm
    · exact value_discoverFiles_sublist env paths hplace
        (Exclusion.patterns_subset_of_subset s noDefault fun x => (hmem x).mpr)
    · exact value_discoverFiles_sublist env paths hplace.symm
        (Exclusion.patterns_subset_of_subset s noDefault fun x => (hmem x).mp)
  · intro d hstands q content hstraight hfile hshort
    exact hstands.find_normalize hstraight hfile hshort

/-- A world with generated files and notes beside the sources. -/
def generatedWorld : Environment where
  root := .directory [("gen", .directory [("a.js", .file "x".toUTF8)]),
    ("src", .directory [("b.ts", .file "x".toUTF8), ("c.min.js", .file "x".toUTF8),
      ("notes.md", .file "x".toUTF8)])]
  directory := some ⟨"/"⟩
  vars := []

/-- Settings at the root, without patterns. -/
def rootSettings : FoundSettings := ⟨⟨"/"⟩, Settings.unset, none⟩

/-- A pattern that is there twice removes the generated files, as it does alone.  The notes are
found since they are given by name. -/
theorem exclusion_only_removes_generatedWorld :
    (discoverFiles generatedWorld (some (rootSettings.excluding ["gen/", "gen/"])) false
        [⟨"."⟩, ⟨"gen/../src//notes.md"⟩]).value =
      (discoverFiles generatedWorld (some (rootSettings.excluding ["gen/"])) false
        [⟨"."⟩, ⟨"gen/../src//notes.md"⟩]).value ∧
      (discoverFiles generatedWorld (some (rootSettings.excluding ["gen/"])) false
        [⟨"."⟩, ⟨"gen/../src//notes.md"⟩]).value.map Except.toOption =
          [some ⟨"/src/b.ts"⟩, some ⟨"/src/notes.md"⟩] := by
  obtain ⟨-, hcongr, -⟩ := exclusion_only_removes generatedWorld
  refine ⟨hcongr _ _ _ _ _ (by simp), by decide +kernel⟩

/-- A world where a link leads to a directory that is not beside it. -/
def aliasWorld : Environment where
  root := .directory [("link", .link ⟨"store/deep"⟩),
    ("store", .directory [("deep", .directory []), ("notes.md", .file "x".toUTF8)])]
  directory := some ⟨"/"⟩
  vars := []

/-- Behind a link a `..` is taken back to where the link stands.  So a path that leads to a file is
not found although it is given by name. -/
theorem discoverFiles_misses_alias :
    aliasWorld.isFile ⟨"link/../notes.md"⟩ = true ∧
      ∀ p, .ok p ∉ (discoverFiles aliasWorld none false [⟨"link/../notes.md"⟩]).value := by
  have hnone : (discoverFiles aliasWorld none false [⟨"link/../notes.md"⟩]).value.map
      Except.toOption = [none] := by decide +kernel
  refine ⟨by decide +kernel, fun p hp => ?_⟩
  have hmem := List.mem_map_of_mem (f := Except.toOption) hp
  rw [hnone] at hmem
  simp [Except.toOption] at hmem

end LoopLint
