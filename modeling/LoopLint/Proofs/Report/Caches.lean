import LoopLint.Proofs.Command.Outcomes
import LoopLint.Proofs.Path.Canonical

/-!
# Reports that remember files

A report shows its findings one after the other, and many of them are in the same file.  The name of
a file is worked out once and its text is read once; both are remembered under the path of the file,
and looked up by its components, whatever its spelling.  `Cache` is such a memory, and
`Writer.run` writes a report with one: the state is what was written so far and the names that are
known.  For the texts of files there is a pass of its own, `gatherSources`, which tries a file again
as long as it could not be read.

What is remembered is always the first of the paths that are the same, and for texts the first one
that could be read (`Cache.Names`, `Cache.Sources`).  So the run writes what `Report.concise` and
`Report.full` say without any memory.  If paths that are the same are also spelled the same, then
every finding is shown with the name and the text of its own file, as if it were alone.
-/

namespace LoopLint

namespace Path

variable {p q : Path}

/-- Paths that are the same are the same as the same paths. -/
lemma same_congr (h : p.same q = true) (r : Path) : p.same r = q.same r := by
  have hcomponents : p.components = q.components := eq_of_beq h
  rw [same, same, hcomponents]

end Path

namespace Report

/-! ### Writing finding by finding -/

/-- How a report writes a finding once the name of its file is known; nothing for a finding that it
leaves out. -/
abbrev Writer := Diagnostic → Option (String → String)

namespace Writer

/-- The findings that are not left out. -/
def shown (w : Writer) (ds : List Diagnostic) : List Diagnostic :=
  ds.filter fun d => (w d).isSome

/-- The files of the findings that are not left out. -/
def files (w : Writer) (ds : List Diagnostic) : List Path :=
  (w.shown ds).map (·.filename)

/-- What is written of a finding in a file with the given name. -/
def piece (w : Writer) (name : Path → String) (d : Diagnostic) : String :=
  match w d with
  | none => ""
  | some write => write (name d.filename)

/-- What is written of some findings. -/
def text (w : Writer) (name : Path → String) (ds : List Diagnostic) : String :=
  String.join (ds.map (w.piece name))

variable (w : Writer) (name : Path → String)

/-- A finding that is passed over adds nothing. -/
lemma piece_of_none {w : Writer} {d : Diagnostic} (h : w d = none) : w.piece name d = "" := by
  rw [piece, h]

/-- A finding that is not passed over adds what is written for it, with the name of its file. -/
lemma piece_of_some {w : Writer} {d : Diagnostic} {write : String → String} (h : w d = some write) :
    w.piece name d = write (name d.filename) := by
  rw [piece, h]

/-- Without findings nothing is written. -/
lemma text_nil : w.text name [] = "" := rfl

/-- The piece for the first finding comes first. -/
lemma text_cons (d : Diagnostic) (ds : List Diagnostic) :
    w.text name (d :: ds) = w.piece name d ++ w.text name ds := by
  rw [text, List.map_cons, String.join_cons, text]

/-- The texts for two rows of findings stand one behind the other. -/
lemma text_append (ds₁ ds₂ : List Diagnostic) :
    w.text name (ds₁ ++ ds₂) = w.text name ds₁ ++ w.text name ds₂ := by
  rw [text, List.map_append, String.join_append, text, text]

/-- Findings that are left out add nothing. -/
lemma text_shown (ds : List Diagnostic) : w.text name (w.shown ds) = w.text name ds := by
  induction ds with
  | nil => rfl
  | cons d ds ih =>
    rw [text_cons]
    cases hd : w d with
    | none =>
      have hshown : w.shown (d :: ds) = w.shown ds := by simp [shown, hd]
      rw [hshown, ih, piece_of_none name hd, String.empty_append]
    | some write =>
      have hshown : w.shown (d :: ds) = d :: w.shown ds := by simp [shown, hd]
      rw [hshown, text_cons, ih]

/-- The text depends only on the pieces for the findings. -/
lemma text_congr {w w' : Writer} {name name' : Path → String} {ds : List Diagnostic}
    (h : ∀ d ∈ ds, w.piece name d = w'.piece name' d) : w.text name ds = w'.text name' ds := by
  rw [text, text, List.map_congr_left h]

/-- A finding that is passed over does not count for the files. -/
lemma files_cons_of_none {w : Writer} {d : Diagnostic} (h : w d = none) (ds : List Diagnostic) :
    w.files (d :: ds) = w.files ds := by
  simp [files, shown, h]

/-- A finding that is not passed over counts for the files. -/
lemma files_cons_of_some {w : Writer} {d : Diagnostic} {write : String → String}
    (h : w d = some write) (ds : List Diagnostic) :
    w.files (d :: ds) = d.filename :: w.files ds := by
  simp [files, shown, h]

end Writer

/-- How the concise report writes a finding: one without a place is left out. -/
def conciseWriter (color : Bool) : Writer := fun d =>
  d.location.map fun _ name => conciseLine color (fun _ => name) d

/-- How the report with source lines writes a finding, given the texts of the files: one in a file
without a text is left out. -/
def fullWriter (color : Bool) (source : Path → Option String) : Writer := fun d =>
  (source d.filename).map fun s name => snippet color (fun _ => name) d s

/-- What the concise format writes for a finding is its line. -/
lemma piece_conciseWriter (color : Bool) (name : Path → String) (d : Diagnostic) :
    (conciseWriter color).piece name d = conciseLine color name d := by
  unfold Writer.piece conciseWriter conciseLine
  cases d.location with
  | none => rfl
  | some place => rfl

/-- The concise report, without any memory. -/
theorem written_concise_eq_text (env : Environment) (color : Bool) (ds : List Diagnostic)
    (failures : List (String × Failure)) :
    (concise env color ds failures).written =
      (conciseWriter color).text (fileName env ((conciseWriter color).files ds)) ds := by
  have hfiles : (conciseWriter color).files ds =
      (ds.filter (·.location.isSome)).map (·.filename) := by
    simp only [Writer.files, Writer.shown, conciseWriter, Option.isSome_map]
  have hpieces := List.map_congr_left fun d (_ : d ∈ ds) =>
    piece_conciseWriter color (fileName env ((conciseWriter color).files ds)) d
  rw [Writer.text, hpieces, hfiles]
  rfl

section Full

variable {color : Bool} {source : Path → Option String} {d : Diagnostic}

/-- Of the names only that of the finding's own file is shown. -/
lemma snippet_const (name : Path → String) (d : Diagnostic) (s : String) :
    snippet color (fun _ => name d.filename) d s = snippet color name d s := rfl

/-- Without the text of its file a finding is passed over. -/
lemma fullWriter_of_none (h : source d.filename = none) : fullWriter color source d = none := by
  rw [fullWriter, h, Option.map_none]

/-- With the text of its file a finding is shown as a snippet. -/
lemma fullWriter_of_some {s : String} (h : source d.filename = some s) :
    fullWriter color source d = some fun name => snippet color (fun _ => name) d s := by
  rw [fullWriter, h, Option.map_some]

/-- The findings in files with a text, each written with that text. -/
lemma join_filterMap_eq_text (name : Path → String) (ds : List Diagnostic) :
    String.join ((ds.filterMap fun d => (source d.filename).map fun s => (d, s)).map
      fun (d, s) => snippet color name d s) = (fullWriter color source).text name ds := by
  induction ds with
  | nil => rfl
  | cons d ds ih =>
    rw [Writer.text_cons, ← ih]
    cases hd : source d.filename with
    | none =>
      rw [List.filterMap_cons_none (by rw [hd, Option.map_none]),
        Writer.piece_of_none name (fullWriter_of_none hd), String.empty_append]
    | some s =>
      rw [List.filterMap_cons_some (by rw [hd, Option.map_some]), List.map_cons, String.join_cons,
        Writer.piece_of_some name (fullWriter_of_some hd), snippet_const]

/-- The files of the findings that have a text are those that the full format writes about. -/
lemma map_filename_filterMap (ds : List Diagnostic) :
    (ds.filterMap fun d => (source d.filename).map fun s => (d, s)).map (·.1.filename) =
      (fullWriter color source).files ds := by
  induction ds with
  | nil => rfl
  | cons d ds ih =>
    cases hd : source d.filename with
    | none =>
      rw [List.filterMap_cons_none (by rw [hd, Option.map_none]), ih,
        Writer.files_cons_of_none (fullWriter_of_none hd)]
    | some s =>
      rw [List.filterMap_cons_some (by rw [hd, Option.map_some]), List.map_cons, ih,
        Writer.files_cons_of_some (fullWriter_of_some hd)]

end Full

/-- The writer of the report with source lines, for a list of findings. -/
def sourceWriter (env : Environment) (color : Bool) (ds : List Diagnostic) : Writer :=
  fullWriter color (source? env (ds.map (·.filename)))

/-- The report with source lines, without any memory. -/
theorem written_full_eq_text (env : Environment) (color : Bool) (ds : List Diagnostic)
    (failures : List (String × Failure)) :
    (full env color ds failures).written =
      (sourceWriter env color ds).text
        (fileName env ((sourceWriter env color ds).files ds)) ds := by
  rw [sourceWriter, ← join_filterMap_eq_text, ← map_filename_filterMap]
  rfl

/-! ### Remembering files -/

/-- Texts that are remembered, each for a path. -/
abbrev Cache := List (Path × String)

namespace Cache

/-- What is remembered for a path.  Paths that are the same share it. -/
def get? (c : Cache) (p : Path) : Option String :=
  (c.find? fun e => p.same e.1).map (·.2)

/-- The cache with a text for one more path. -/
def put (c : Cache) (p : Path) (s : String) : Cache :=
  c ++ [(p, s)]

/-- The name of a file, and the names that are known once it was asked for. -/
def nameOf (env : Environment) (c : Cache) (p : Path) : String × Cache :=
  match c.get? p with
  | some name => (name, c)
  | none => (env.relativize p, c.put p (env.relativize p))

/-- The texts that are known once the file of a finding was asked for.  A file that is not known is
read; if this fails, it stays unknown. -/
def readFor (env : Environment) (c : Cache) (d : Diagnostic) : Cache :=
  match c.get? d.filename with
  | some _ => c
  | none =>
    match env.readText d.filename with
    | .ok s => c.put d.filename s
    | .error _ => c

/-- What a cache has for a path once a text was put into it: the entry that was there stays. -/
lemma get?_put (c : Cache) (q : Path) (s : String) (p : Path) :
    (c.put q s).get? p = (c.get? p).or (if p.same q then some s else none) := by
  rw [get?, put, List.find?_append, get?]
  cases c.find? fun e => p.same e.1 with
  | some e => rfl
  | none => cases hq : p.same q <;> simp [hq]

end Cache

/-- What a report has written so far, and the names of files that are known. -/
structure Progress where
  written : String
  names : Cache

/-- One more finding.  The name of its file is asked for only if the finding is shown. -/
def Writer.step (env : Environment) (w : Writer) (s : Progress) (d : Diagnostic) : Progress :=
  match w d with
  | none => s
  | some write =>
    let (name, names) := s.names.nameOf env d.filename
    ⟨s.written ++ write name, names⟩

/-- What is written of some findings, from the first to the last. -/
def Writer.run (env : Environment) (w : Writer) (ds : List Diagnostic) : String :=
  (ds.foldl (w.step env) ⟨"", []⟩).written

/-- The texts of the files of some findings, read from the first to the last. -/
def gatherSources (env : Environment) (ds : List Diagnostic) : Cache :=
  ds.foldl (Cache.readFor env) []

/-! ### What is remembered -/

section Invariants

variable {env : Environment}

/-- The names that are known are those of the given files.  Of files that are the same, the first
one gives the name. -/
def Cache.Names (env : Environment) (files : List Path) (c : Cache) : Prop :=
  ∀ p, c.get? p = (files.find? p.same).map env.relativize

/-- The texts that are known are those of the given files.  Of files that are the same, the first
one that can be read gives the text. -/
def Cache.Sources (env : Environment) (files : List Path) (c : Cache) : Prop :=
  ∀ p, c.get? p = source? env files p

/-- With one more file behind the others, the first of them is still found first. -/
lemma find?_same_concat (files : List Path) (q p : Path) :
    (files ++ [q]).find? p.same =
      (files.find? p.same).or (if p.same q then some q else none) := by
  rw [List.find?_append]
  cases hq : p.same q <;> simp [hq]

/-- One more file adds the text for its path, unless there is one already. -/
lemma source?_concat (files : List Path) (q p : Path) :
    source? env (files ++ [q]) p =
      (source? env files p).or (if p.same q then (env.readText q).toOption else none) := by
  rw [source?, List.filter_append, List.findSome?_append, source?]
  cases hq : p.same q <;> simp [hq]

/-- Paths that are the same have the same text. -/
lemma source?_congr {p q : Path} (h : p.same q = true) (files : List Path) :
    source? env files p = source? env files q := by
  have hsame : p.same = q.same := funext (Path.same_congr h)
  rw [source?, hsame, source?]

/-- A file that is asked for gets the name of the first one that is the same, also if more files
come later. -/
lemma Cache.Names.fst_nameOf {files : List Path} {c : Cache} (h : c.Names env files) (p : Path)
    (later : List Path) : (c.nameOf env p).1 = fileName env (files ++ p :: later) p := by
  have hget := h p
  rw [nameOf, fileName, List.find?_append]
  cases hfind : files.find? p.same with
  | none =>
    rw [hfind, Option.map_none] at hget
    rw [hget, Option.none_or, List.find?_cons_of_pos p.same_self]
    rfl
  | some q =>
    rw [hfind, Option.map_some] at hget
    rw [hget]
    rfl

/-- Asking for a file adds it to those with a known name. -/
lemma Cache.Names.snd_nameOf {files : List Path} {c : Cache} (h : c.Names env files) (q : Path) :
    (c.nameOf env q).2.Names env (files ++ [q]) := by
  intro p
  have hp := h p
  have hq := h q
  rw [find?_same_concat, nameOf]
  cases hfind : files.find? q.same with
  | none =>
    rw [hfind, Option.map_none] at hq
    rw [hq, get?_put, hp]
    cases files.find? p.same with
    | some r => rfl
    | none => cases p.same q <;> rfl
  | some r =>
    rw [hfind, Option.map_some] at hq
    rw [hq, hp]
    cases hpq : p.same q with
    | false => simp
    | true =>
      -- the two paths are the same, so the first file that is the same as one is that for the other
      have hsame : p.same = q.same := funext (Path.same_congr hpq)
      rw [hsame, hfind]
      rfl

/-- Reading the file of a finding adds it to those with a known text. -/
lemma Cache.Sources.readFor {files : List Path} {c : Cache} (h : c.Sources env files)
    (d : Diagnostic) : (c.readFor env d).Sources env (files ++ [d.filename]) := by
  intro p
  have hp := h p
  have hd := h d.filename
  rw [source?_concat, Cache.readFor]
  cases hsource : source? env files d.filename with
  | some s =>
    rw [hsource] at hd
    rw [hd, hp]
    cases hsame : p.same d.filename with
    | false => simp
    | true =>
      rw [source?_congr hsame, hsource]
      rfl
  | none =>
    rw [hsource] at hd
    rw [hd]
    cases hread : env.readText d.filename with
    | ok s =>
      rw [get?_put, hp]
      rfl
    | error e =>
      rw [hp]
      cases hsame : p.same d.filename <;> simp [Except.toOption]

/-- What is known after all files were asked for. -/
theorem sources_gatherSources (ds : List Diagnostic) :
    (gatherSources env ds).Sources env (ds.map (·.filename)) := by
  have hrun : ∀ (ds : List Diagnostic) (files : List Path) (c : Cache), c.Sources env files →
      (ds.foldl (Cache.readFor env) c).Sources env (files ++ ds.map (·.filename)) := by
    intro ds
    induction ds with
    | nil =>
      intro files c hc
      rwa [List.map_nil, List.append_nil]
    | cons d ds ih =>
      intro files c hc
      have hstep := ih (files ++ [d.filename]) (c.readFor env d) (hc.readFor d)
      rwa [List.append_assoc, List.singleton_append] at hstep
  exact hrun ds [] [] fun p => rfl

/-- What a run writes from some point on: the findings that are left, with the names of the first
files that are the same. -/
lemma Writer.written_foldl_step (w : Writer) (ds : List Diagnostic) (files : List Path)
    (s : Progress) (hs : s.names.Names env files) :
    (ds.foldl (w.step env) s).written =
      s.written ++ w.text (fileName env (files ++ w.files ds)) ds := by
  induction ds generalizing files s with
  | nil => rw [List.foldl_nil, text_nil, String.append_empty]
  | cons d ds ih =>
    rw [List.foldl_cons, text_cons]
    cases hd : w d with
    | none =>
      have hstep : w.step env s d = s := by rw [step, hd]
      rw [hstep, ih files s hs, files_cons_of_none hd, piece_of_none _ hd, String.empty_append]
    | some write =>
      have hname := hs.fst_nameOf d.filename (w.files ds)
      have hnames := hs.snd_nameOf d.filename
      have hstep : w.step env s d =
          ⟨s.written ++ write (s.names.nameOf env d.filename).1,
            (s.names.nameOf env d.filename).2⟩ := by
        rw [step, hd]
      rw [hstep, ih (files ++ [d.filename]) _ hnames, List.append_assoc, List.singleton_append,
        files_cons_of_some hd, piece_of_some _ hd, hname, String.append_assoc]

/-- **A run with a memory** writes each finding with the name of the first shown file that is the
same as its own. -/
theorem Writer.run_eq_text (w : Writer) (ds : List Diagnostic) :
    w.run env ds = w.text (fileName env (w.files ds)) ds := by
  have hempty : Cache.Names env [] [] := fun p => rfl
  rw [Writer.run, w.written_foldl_step ds [] ⟨"", []⟩ hempty, String.empty_append, List.nil_append]

end Invariants

/-- The concise report, written with a memory. -/
def conciseRun (env : Environment) (color : Bool) (ds : List Diagnostic) : String :=
  (conciseWriter color).run env ds

/-- The report with source lines, written with a memory: first the files are read, then the findings
are shown. -/
def fullRun (env : Environment) (color : Bool) (ds : List Diagnostic) : String :=
  (fullWriter color (gatherSources env ds).get?).run env ds

/-- A memory changes nothing in the concise report, however its paths are spelled. -/
theorem conciseRun_eq (env : Environment) (color : Bool) (ds : List Diagnostic)
    (failures : List (String × Failure)) :
    conciseRun env color ds = (concise env color ds failures).written := by
  rw [conciseRun, Writer.run_eq_text, written_concise_eq_text]

/-- A memory changes nothing in the report with source lines, however its paths are spelled. -/
theorem fullRun_eq (env : Environment) (color : Bool) (ds : List Diagnostic)
    (failures : List (String × Failure)) :
    fullRun env color ds = (full env color ds failures).written := by
  have hsources : (gatherSources env ds).get? = source? env (ds.map (·.filename)) :=
    funext (sources_gatherSources ds)
  rw [fullRun, hsources, Writer.run_eq_text, written_full_eq_text, sourceWriter]

/-! ### Paths that are spelled alike -/

/-- Files that are the same are spelled the same in some findings. -/
def SpelledAlike (ds : List Diagnostic) : Prop :=
  ∀ a ∈ ds, ∀ b ∈ ds, a.filename.same b.filename = true → a.filename = b.filename

instance : DecidablePred SpelledAlike := fun ds =>
  inferInstanceAs (Decidable (∀ a ∈ ds, ∀ b ∈ ds, a.filename.same b.filename = true →
    a.filename = b.filename))

/-- The findings of a check are spelled alike, since the paths of the files that it finds are
canonical. -/
lemma spelledAlike_diagnosticsOf {env : Environment} {directory : Path}
    (hdirectory : env.directory = some directory) (parse : Parser) {ps : List Path}
    (hps : ∀ p ∈ ps, p.Canonical) : SpelledAlike (diagnosticsOf env parse ps) := by
  intro a ha b hb hsame
  obtain ⟨p, hp, l, -, rfl⟩ := mem_diagnosticsOf_iff.mp ha
  obtain ⟨q, hq, m, -, rfl⟩ := mem_diagnosticsOf_iff.mp hb
  have hcomponents : Path.components ⟨env.relativize p⟩ = Path.components ⟨env.relativize q⟩ :=
    eq_of_beq hsame
  rw [Environment.relativize, Environment.relativize, hdirectory] at hcomponents
  have hpq : p = q := (hps p hp).eq_of_components_relativize_eq (hps q hq) hcomponents
  subst hpq
  rfl

/-- If all paths are spelled alike, then so are the first of them. -/
lemma SpelledAlike.append_left {ds₁ ds₂ : List Diagnostic} (h : SpelledAlike (ds₁ ++ ds₂)) :
    SpelledAlike ds₁ := by
  intro a ha b hb
  exact h a (List.mem_append_left ds₂ ha) b (List.mem_append_left ds₂ hb)

/-- If all paths are spelled alike, then so are the last of them. -/
lemma SpelledAlike.append_right {ds₁ ds₂ : List Diagnostic} (h : SpelledAlike (ds₁ ++ ds₂)) :
    SpelledAlike ds₂ := by
  intro a ha b hb
  exact h a (List.mem_append_right ds₁ ha) b (List.mem_append_right ds₁ hb)

section Alike

variable {env : Environment}

/-- Where no other spelling comes first, a file has its own name. -/
lemma fileName_eq_relativize {files : List Path} {p : Path}
    (h : ∀ q ∈ files, p.same q = true → p = q) : fileName env files p = env.relativize p := by
  rw [fileName]
  cases hfind : files.find? p.same with
  | none => rfl
  | some q =>
    have hq : p = q := h q (List.mem_of_find?_eq_some hfind) (List.find?_some hfind)
    rw [Option.getD_some, hq]

/-- Where there is no other spelling, a file has its own text. -/
lemma source?_eq_readText {files : List Path} {p : Path}
    (h : ∀ q ∈ files, p.same q = true → p = q) (hp : p ∈ files) :
    source? env files p = (env.readText p).toOption := by
  have hall : ∀ q ∈ files.filter p.same, q = p := by
    intro q hq
    obtain ⟨hmem, hsame⟩ := List.mem_filter.mp hq
    exact (h q hmem hsame).symm
  have hne : files.filter p.same ≠ [] :=
    List.ne_nil_of_mem (List.mem_filter.mpr ⟨hp, p.same_self⟩)
  rw [source?, List.eq_replicate_of_mem hall, List.findSome?_replicate,
    if_neg (by simpa using hne)]

variable {ds : List Diagnostic}

/-- Where paths are spelled alike, a file that was written about before has the very path of the
finding. -/
lemma SpelledAlike.eq_of_mem_files (h : SpelledAlike ds) {d : Diagnostic} (hd : d ∈ ds)
    (w : Writer) : ∀ q ∈ w.files ds, d.filename.same q = true → d.filename = q := by
  intro q hq hsame
  obtain ⟨e, he, rfl⟩ := List.mem_map.mp hq
  exact h d hd e (List.mem_of_mem_filter he) hsame

/-- The report shows every finding under the name of its own file. -/
lemma SpelledAlike.text_fileName (h : SpelledAlike ds) (w : Writer) :
    w.text (fileName env (w.files ds)) ds = w.text env.relativize ds := by
  refine Writer.text_congr fun d hd => ?_
  have hname : fileName env (w.files ds) d.filename = env.relativize d.filename :=
    fileName_eq_relativize (h.eq_of_mem_files hd w)
  rw [Writer.piece, Writer.piece, hname]

/-- The writer that knows the text of every file. -/
def ownWriter (env : Environment) (color : Bool) : Writer :=
  fullWriter color fun p => (env.readText p).toOption

/-- The report shows every finding with the text of its own file. -/
lemma SpelledAlike.text_sourceWriter (h : SpelledAlike ds) (color : Bool) (name : Path → String) :
    (sourceWriter env color ds).text name ds = (ownWriter env color).text name ds := by
  refine Writer.text_congr fun d hd => ?_
  have hsource : source? env (ds.map (·.filename)) d.filename =
      (env.readText d.filename).toOption := by
    refine source?_eq_readText ?_ (List.mem_map_of_mem hd)
    intro q hq hsame
    obtain ⟨e, he, rfl⟩ := List.mem_map.mp hq
    exact h d hd e he hsame
  rw [Writer.piece, Writer.piece, sourceWriter, ownWriter, fullWriter, fullWriter, hsource]

/-- The concise report is made finding by finding. -/
lemma SpelledAlike.written_concise (h : SpelledAlike ds) (color : Bool)
    (failures : List (String × Failure)) :
    (concise env color ds failures).written = (conciseWriter color).text env.relativize ds := by
  rw [written_concise_eq_text, h.text_fileName]

/-- The report with source lines is made finding by finding. -/
lemma SpelledAlike.written_full (h : SpelledAlike ds) (color : Bool)
    (failures : List (String × Failure)) :
    (full env color ds failures).written = (ownWriter env color).text env.relativize ds := by
  rw [written_full_eq_text, h.text_fileName, h.text_sourceWriter]

end Alike

/-- A finding with the lines of its own file; nothing if that file cannot be read. -/
def ownSnippet (env : Environment) (color : Bool) (d : Diagnostic) : String :=
  match env.readText d.filename with
  | .ok source => snippet color env.relativize d source
  | .error _ => ""

/-- The concise format is one line for each finding. -/
lemma text_conciseWriter (color : Bool) (name : Path → String) (ds : List Diagnostic) :
    (conciseWriter color).text name ds = String.join (ds.map (conciseLine color name)) := by
  have hpieces := funext (piece_conciseWriter color name)
  rw [Writer.text, hpieces]

/-- If every finding reads its own file, the full format is one snippet for each finding. -/
lemma text_ownWriter (env : Environment) (color : Bool) (ds : List Diagnostic) :
    (ownWriter env color).text env.relativize ds = String.join (ds.map (ownSnippet env color)) := by
  have hpieces : (ownWriter env color).piece env.relativize = ownSnippet env color := by
    funext d
    rw [ownSnippet]
    cases hread : env.readText d.filename with
    | error e =>
      have hnone : (env.readText d.filename).toOption = none := by rw [hread, Except.toOption]
      rw [ownWriter, Writer.piece_of_none _ (fullWriter_of_none hnone)]
    | ok source =>
      have hsome : (env.readText d.filename).toOption = some source := by
        rw [hread, Except.toOption]
      rw [ownWriter, Writer.piece_of_some _ (fullWriter_of_some hsome), snippet_const]
  rw [Writer.text, hpieces]

/-- **The memory of a report cannot be seen.**  If paths that are the same are spelled the same in
some findings, then the report on them is that on the first part, followed by that on the rest,
wherever they are cut.  Every finding is written with the name and the text of its own file and with
nothing that is known from others, and findings that are left out leave no trace. -/
theorem caches_are_transparent (env : Environment) (color : Bool) (ds₁ ds₂ : List Diagnostic)
    (failures : List (String × Failure)) (h : SpelledAlike (ds₁ ++ ds₂)) :
    conciseRun env color (ds₁ ++ ds₂) = (concise env color (ds₁ ++ ds₂) failures).written ∧
      (concise env color (ds₁ ++ ds₂) failures).written =
        (concise env color ds₁ failures).written ++ (concise env color ds₂ failures).written ∧
      (concise env color (ds₁ ++ ds₂) failures).written =
        String.join ((ds₁ ++ ds₂).map (conciseLine color env.relativize)) ∧
      fullRun env color (ds₁ ++ ds₂) = (full env color (ds₁ ++ ds₂) failures).written ∧
      (full env color (ds₁ ++ ds₂) failures).written =
        (full env color ds₁ failures).written ++ (full env color ds₂ failures).written ∧
      (full env color (ds₁ ++ ds₂) failures).written =
        String.join ((ds₁ ++ ds₂).map (ownSnippet env color)) := by
  have h₁ : SpelledAlike ds₁ := h.append_left
  have h₂ : SpelledAlike ds₂ := h.append_right
  refine ⟨conciseRun_eq env color _ failures, ?_, ?_, fullRun_eq env color _ failures, ?_, ?_⟩
  · rw [h.written_concise, h₁.written_concise, h₂.written_concise, Writer.text_append]
  · rw [h.written_concise, text_conciseWriter]
  · rw [h.written_full, h₁.written_full, h₂.written_full, Writer.text_append]
  · rw [h.written_full, text_ownWriter]

/-- A world with one of two files. -/
def halfWorld : Environment where
  root := .directory [("here.js", .file "f(x);\n".toUTF8)]
  directory := some ⟨"/"⟩
  vars := []

/-- A finding at the start of a row. -/
def findingAt (file : String) (row : Nat) : Diagnostic :=
  ⟨preferForOf "a", ⟨file⟩, ⟨0, 4⟩, some ⟨row, 0⟩⟩

/-- Four findings in two files by turns, one of which cannot be read.  The report on all of them
shows two, and it is the report on two of them followed by that on the others. -/
theorem caches_are_transparent_halfWorld :
    SpelledAlike ([findingAt "here.js" 1, findingAt "gone.js" 1] ++
        [findingAt "gone.js" 2, findingAt "here.js" 2]) ∧
      ((sourceWriter halfWorld false [findingAt "here.js" 1, findingAt "gone.js" 1,
        findingAt "gone.js" 2, findingAt "here.js" 2]).shown [findingAt "here.js" 1,
          findingAt "gone.js" 1, findingAt "gone.js" 2, findingAt "here.js" 2]).length = 2 ∧
      (full halfWorld false ([findingAt "here.js" 1, findingAt "gone.js" 1] ++
          [findingAt "gone.js" 2, findingAt "here.js" 2]) []).written =
        (full halfWorld false [findingAt "here.js" 1, findingAt "gone.js" 1] []).written ++
          (full halfWorld false [findingAt "gone.js" 2, findingAt "here.js" 2] []).written := by
  have halike : SpelledAlike ([findingAt "here.js" 1, findingAt "gone.js" 1] ++
      [findingAt "gone.js" 2, findingAt "here.js" 2]) := by decide +kernel
  obtain ⟨-, -, -, -, hfull, -⟩ := caches_are_transparent halfWorld false _ _ [] halike
  exact ⟨halike, by decide +kernel, hfull⟩

end Report
end LoopLint
