import LoopLint.Proofs.Environment.Rewrite
import LoopLint.Proofs.Path.Canonical

/-!
# Short names of files

A file is shown under a short name, its path seen from the working directory.  The short name is
worked out from the names that the path stands for, and it stands for the same names
(`Path.namesFrom_relativize`); all else follows from this.  So a short name names the file that the
path names, it cannot be shortened any more, and different files have different short names
(`Path.KeepsFiles`).

The file tree agrees: if the working directory is really there, then a short name leads through
directories and links to where the path leads (`Environment.StandsIn.locate_relativize`), so a check
reads the file that was found.
-/

namespace LoopLint

namespace Path

/-! ### The names that a short name stands for -/

/-- A path is canonical exactly if there is nothing to normalize. -/
lemma canonical_iff_normalize_eq (d p : Path) : p.Canonical ↔ normalize (some d) p = p := by
  constructor
  · rintro ⟨names, hnames, rfl⟩
    rw [normalize, namesFrom_ofNames d hnames]
  · intro h
    rw [← h]
    exact canonical_normalize d p

/-- The segments of a canonical path are neither `.` nor `..`. -/
lemma ne_dots_of_mem_segments {names : List String} (h : ∀ n ∈ names, IsName n) {s : String}
    (hs : s ∈ (ofNames names).segments) : s ≠ "." ∧ s ≠ ".." := by
  rw [segments_ofNames, List.mem_cons] at hs
  rcases hs with rfl | hs
  · exact ⟨by decide, by decide⟩
  · by_cases hne : names = []
    · subst hne
      have hempty : s = "" := by simpa [segments, Text.splitOn] using hs
      subst hempty
      exact ⟨by decide, by decide⟩
    · rw [segments_intercalate hne fun n hn => (h n hn).2.2.2] at hs
      exact ⟨(h s hs).2.1, (h s hs).2.2.1⟩

/-- Names that are joined to a relative path lead down from the directory. -/
lemma namesFrom_intercalate (d : Path) {names : List String} (h : ∀ n ∈ names, IsName n) :
    namesFrom d ⟨"/".intercalate names⟩ = walk d.components ++ names := by
  rw [namesFrom, components_intercalate h, walk, List.foldl_append, foldl_step_names,
    List.reverse_append, List.reverse_reverse, walk]

/-- A path is shown with the names below the working directory, or as it is written. -/
lemma relativize_cases (d p : Path) :
    (∃ rest, rest ≠ [] ∧ namesFrom d p = walk d.components ++ rest ∧
        relativize (some d) p = "/".intercalate rest) ∨
      relativize (some d) p = p.text := by
  rw [relativize]
  split
  · next n rest hbelow =>
    exact .inl ⟨n :: rest, List.cons_ne_nil n rest, below?_eq_some_iff.mp hbelow, rfl⟩
  · exact .inr rfl

/-- A short name stands for the same names as the path. -/
theorem namesFrom_relativize (d p : Path) :
    namesFrom d ⟨relativize (some d) p⟩ = namesFrom d p := by
  rcases relativize_cases d p with ⟨rest, hne, hnames, hshort⟩ | hshort
  · have hrest : ∀ n ∈ rest, IsName n := by
      intro n hn
      refine isName_of_mem_namesFrom (d := d) (p := p) ?_
      rw [hnames]
      exact List.mem_append_right _ hn
    rw [hshort, namesFrom_intercalate d hrest, hnames]
  · rw [hshort]

/-- A short name cannot be shortened. -/
theorem relativize_relativize (d p : Path) :
    relativize (some d) ⟨relativize (some d) p⟩ = relativize (some d) p := by
  have hnames := namesFrom_relativize d p
  rcases relativize_cases d p with ⟨rest, hne, hbelow, hshort⟩ | hshort
  · obtain ⟨n, ns, rfl⟩ := List.exists_cons_of_ne_nil hne
    have hsome : below? (walk d.components) (namesFrom d p) = some (n :: ns) :=
      below?_eq_some_iff.mpr hbelow
    rw [hshort] at hnames ⊢
    rw [relativize, hnames, hsome]
  · rw [hshort]
    exact hshort

/-- The short name of a canonical path stands at its end. -/
lemma exists_text_eq_append_relativize (d : Path) {names : List String}
    (h : ∀ n ∈ names, IsName n) :
    ∃ start, (ofNames names).text = start ++ relativize (some d) (ofNames names) := by
  rcases relativize_cases d (ofNames names) with ⟨rest, hne, hbelow, hshort⟩ | hshort
  · rw [namesFrom_ofNames d h] at hbelow
    rw [hshort]
    by_cases hnil : walk d.components = []
    · refine ⟨"/", ?_⟩
      rw [hbelow, hnil, List.nil_append, ofNames]
    · refine ⟨"/" ++ "/".intercalate (walk d.components) ++ "/", ?_⟩
      rw [hbelow, ofNames, String.intercalate_append_of_ne_nil hnil hne]
      simp only [String.append_assoc]
  · exact ⟨"", by rw [hshort, String.empty_append]⟩

/-- A way to normalize paths and a way to shorten them that agree on the files that are named. -/
structure KeepsFiles (normalize : Path → Path) (shorten : Path → String) : Prop where
  /-- A normalized path starts at the root. -/
  absolute : ∀ p, (normalize p).isAbsolute = true
  /-- A normalized path has neither `.` nor `..`. -/
  plain : ∀ p, ∀ s ∈ (normalize p).segments, s ≠ "." ∧ s ≠ ".."
  normalize_normalize : ∀ p, normalize (normalize p) = normalize p
  /-- A short name names the same file. -/
  normalize_shorten : ∀ p, normalize ⟨shorten p⟩ = normalize p
  /-- A short name stays as it is written. -/
  shorten_shorten : ∀ p, shorten ⟨shorten p⟩ = shorten p
  /-- Different files have different short names. -/
  shorten_injective : ∀ p q, normalize p = p → normalize q = q → shorten p = shorten q → p = q

/-- Shortening keeps files apart, seen from any working directory. -/
theorem keepsFiles (d : Path) : KeepsFiles (normalize (some d)) (relativize (some d)) where
  absolute := by
    intro p
    exact isAbsolute_ofNames _
  plain := by
    intro p s hs
    exact ne_dots_of_mem_segments (fun n hn => isName_of_mem_namesFrom hn) hs
  normalize_normalize := by
    intro p
    exact (canonical_iff_normalize_eq d _).mp (canonical_normalize d p)
  normalize_shorten := by
    intro p
    rw [normalize, namesFrom_relativize, normalize]
  shorten_shorten := relativize_relativize d
  shorten_injective := by
    intro p q hp hq hshort
    have hcomponents : components ⟨relativize (some d) p⟩ = components ⟨relativize (some d) q⟩ := by
      rw [hshort]
    exact ((canonical_iff_normalize_eq d p).mpr hp).eq_of_components_relativize_eq
      ((canonical_iff_normalize_eq d q).mpr hq) hcomponents

end Path

/-! ### The way to a file -/

namespace Entry

/-- Only a directory has anything below it. -/
lemma exists_of_at?_cons {e e' : Entry} {n : String} {ns : List String}
    (h : e.at? (n :: ns) = some e') :
    ∃ es child, e = directory es ∧ lookup? es n = some child ∧ child.at? ns = some e' := by
  rw [at?, Option.bind_eq_some_iff] at h
  obtain ⟨child, hchild, hat⟩ := h
  cases e with
  | file content => cases hchild
  | link target => cases hchild
  | directory es => exact ⟨es, child, rfl, hchild, hat⟩

/-- A link leads to no directory unless it is followed. -/
lemma at?_link_ne (target : Path) (ns : List String) (es : List (String × Entry)) :
    (link target).at? ns ≠ some (directory es) := by
  intro h
  cases ns with
  | nil => cases h
  | cons n ns =>
    obtain ⟨es', child, hlink, -⟩ := exists_of_at?_cons h
    cases hlink

/-- Names that lead to a directory without links are taken one after the other. -/
lemma take_names_append {root : Entry}
    {follow : List String → List String → Except FileError (List String)}
    {here names : List String} {es : List (String × Entry)}
    (hdirectory : root.at? (here.reverse ++ names) = some (directory es))
    (hnames : ∀ n ∈ names, Path.IsName n ∧ n.utf8ByteSize ≤ 255) (rest : List String) :
    root.take follow here (names ++ rest) = root.take follow (names.reverse ++ here) rest := by
  induction names generalizing here with
  | nil => rfl
  | cons n names ih =>
    have hsplit := hdirectory
    rw [at?_append, Option.bind_eq_some_iff] at hsplit
    obtain ⟨e, he, hbelow⟩ := hsplit
    obtain ⟨es', child, rfl, hchild, hat⟩ := exists_of_at?_cons hbelow
    obtain ⟨⟨hempty, hdot, hdots, -⟩, hshort⟩ := hnames n List.mem_cons_self
    have hstep : root.take follow here (n :: (names ++ rest)) =
        root.take follow (n :: here) (names ++ rest) := by
      rw [take, he]
      simp only [hempty, hdot, or_self, if_false, hdots, Nat.not_lt.mpr hshort, hchild]
      cases child with
      | link target => exact absurd hat (at?_link_ne target names es)
      | file content => rfl
      | directory es'' => rfl
    have hnext : root.at? ((n :: here).reverse ++ names) = some (directory es) := by
      rw [List.reverse_cons, List.append_assoc, List.singleton_append]
      exact hdirectory
    rw [List.cons_append, hstep, ih hnext fun m hm => hnames m (List.mem_cons_of_mem n hm),
      List.reverse_cons, List.append_assoc, List.singleton_append]

/-- The same through links behind the directory. -/
lemma resolve_names_append {root : Entry} {names : List String} {es : List (String × Entry)}
    (hdirectory : root.at? names = some (directory es))
    (hnames : ∀ n ∈ names, Path.IsName n ∧ n.utf8ByteSize ≤ 255) (links : Nat)
    (rest : List String) :
    root.resolve links [] (names ++ rest) = root.resolve links names.reverse rest := by
  have htake : ∀ follow, root.take follow [] (names ++ rest) =
      root.take follow (names.reverse ++ []) rest :=
    fun follow => take_names_append hdirectory hnames rest
  cases links with
  | zero => rw [resolve, htake, List.append_nil]
  | succ links => rw [resolve, htake, List.append_nil]

/-- An empty step at the root goes nowhere. -/
lemma resolve_blank {root : Entry} {es : List (String × Entry)} (hroot : root = directory es)
    (links : Nat) (rest : List String) :
    root.resolve links [] ("" :: rest) = root.resolve links [] rest := by
  have htake : ∀ follow, root.take follow [] ("" :: rest) = root.take follow [] rest := by
    intro follow
    have hat : root.at? [].reverse = some (directory es) := by rw [hroot, List.reverse_nil, at?]
    rw [take, hat]
    simp
  cases links with
  | zero => rw [resolve, htake]
  | succ links => rw [resolve, htake]

end Entry

namespace Environment

/-- The working directory is there, and its path leads to it without links. -/
structure StandsIn (env : Environment) (d : Path) : Prop where
  directory : env.directory = some d
  isThere : ∃ es, env.root.at? (Path.walk d.components) = some (.directory es)
  short : ∀ n ∈ Path.walk d.components, n.utf8ByteSize ≤ 255

/-- Where some names lead from the root through links, however long their path is. -/
def destination (env : Environment) (names : List String) : Except FileError (List String) :=
  (env.root.resolve linkLimit [] names).map List.reverse

section Locate

variable {env : Environment} {d : Path} {names : List String}

/-- If the working directory is there, the root is a directory. -/
lemma StandsIn.exists_root_eq (h : env.StandsIn d) : ∃ es, env.root = .directory es := by
  obtain ⟨es, hes⟩ := h.isThere
  cases hwalk : Path.walk d.components with
  | nil =>
    rw [hwalk, Entry.at?] at hes
    exact ⟨es, Option.some.inj hes⟩
  | cons n ns =>
    rw [hwalk] at hes
    obtain ⟨es', child, hroot, -⟩ := Entry.exists_of_at?_cons hes
    exact ⟨es', hroot⟩

/-- A canonical path leads where its names lead. -/
lemma StandsIn.locate_ofNames (h : env.StandsIn d) (hnames : ∀ n ∈ names, Path.IsName n)
    (hshort : (Path.ofNames names).text.utf8ByteSize < pathLimit) :
    env.locate (Path.ofNames names) = env.destination names := by
  obtain ⟨es, hroot⟩ := h.exists_root_eq
  have hne : (Path.ofNames names).text ≠ "" := by simp [Path.ofNames]
  have hsegments : env.root.resolve linkLimit [] (Path.ofNames names).segments =
      env.root.resolve linkLimit [] names := by
    rw [Path.segments_ofNames, Entry.resolve_blank hroot]
    by_cases hnil : names = []
    · subst hnil
      exact Entry.resolve_blank hroot linkLimit []
    · rw [Path.segments_intercalate hnil fun n hn => (hnames n hn).2.2.2]
  rw [locate, if_neg hne, if_neg (Nat.not_le.mpr hshort), Path.isAbsolute_ofNames, if_pos rfl,
    hsegments, destination]

/-- **A short name leads where the path leads**, even if the path itself is too long to be opened.
-/
theorem StandsIn.locate_relativize (h : env.StandsIn d) (hnames : ∀ n ∈ names, Path.IsName n)
    (hshort : (env.relativize (Path.ofNames names)).utf8ByteSize < pathLimit) :
    env.locate ⟨env.relativize (Path.ofNames names)⟩ = env.destination names := by
  have hname : env.relativize (Path.ofNames names) =
      Path.relativize (some d) (Path.ofNames names) := by
    rw [relativize, h.directory]
  rw [hname] at hshort ⊢
  rcases Path.relativize_cases d (Path.ofNames names) with ⟨rest, hne, hbelow, htext⟩ | htext
  · obtain ⟨es, hes⟩ := h.isThere
    rw [Path.namesFrom_ofNames d hnames] at hbelow
    have hrest : ∀ n ∈ rest, Path.IsName n := by
      intro n hn
      refine hnames n ?_
      rw [hbelow]
      exact List.mem_append_right _ hn
    have hdirectory : ∀ n ∈ Path.walk d.components, Path.IsName n ∧ n.utf8ByteSize ≤ 255 := by
      intro n hn
      exact ⟨Path.isName_of_mem_components (Path.mem_of_mem_walk hn), h.short n hn⟩
    have hnonempty : "/".intercalate rest ≠ "" := by
      intro hempty
      have hcomponents := Path.components_intercalate hrest
      rw [hempty] at hcomponents
      exact hne (List.map_eq_nil_iff.mp hcomponents.symm)
    rw [htext] at hshort ⊢
    rw [locate, if_neg hnonempty, if_neg (Nat.not_le.mpr hshort),
      Path.isAbsolute_intercalate hrest, if_neg Bool.false_ne_true, h.directory,
      Path.segments_intercalate hne fun n hn => (hrest n hn).2.2.2, destination, hbelow,
      Entry.resolve_names_append hes hdirectory]
  · rw [htext] at hshort ⊢
    exact h.locate_ofNames hnames hshort

/-- What is read at a path depends only on where it leads. -/
lemma readText_congr {p q : Path} (h : env.locate p = env.locate q) :
    env.readText p = env.readText q := by
  rw [readText, readBytes, find, h, readText, readBytes, find]

/-- Reading under the short name is reading the file at the path. -/
lemma StandsIn.readText_relativize (h : env.StandsIn d) {p : Path} (hp : p.Canonical)
    (hshort : p.text.utf8ByteSize < pathLimit) :
    env.readText ⟨env.relativize p⟩ = env.readText p := by
  obtain ⟨names, hnames, rfl⟩ := hp
  have hname : (env.relativize (Path.ofNames names)).utf8ByteSize < pathLimit := by
    obtain ⟨start, hstart⟩ := Path.exists_text_eq_append_relativize d hnames
    rw [hstart, String.utf8ByteSize_append] at hshort
    rw [relativize, h.directory]
    omega
  refine readText_congr ?_
  rw [h.locate_relativize hnames hname, h.locate_ofNames hnames hshort]

end Locate

end Environment

/-! ### A directory with a link -/

/-- A world with a file below the working directory, which has a link to the file's directory. -/
def linkedWorld : Environment where
  root := .directory [("work", .directory [("src", .directory [("a.js", .file "(".toUTF8)]),
    ("alias", .link ⟨"./src/../src"⟩)])]
  directory := some ⟨"/work"⟩
  vars := []

/-- The working directory of `linkedWorld` is there. -/
lemma standsIn_linkedWorld : linkedWorld.StandsIn ⟨"/work"⟩ := by
  have hwalk : Path.walk (Path.components ⟨"/work"⟩) = ["work"] := by decide
  refine ⟨rfl, ?_, ?_⟩
  · rw [hwalk]
    exact ⟨_, rfl⟩
  · rw [hwalk]
    decide

end LoopLint
