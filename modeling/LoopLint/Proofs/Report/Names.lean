import LoopLint.Proofs.Path.Shortening
import LoopLint.Proofs.Report.Caches

/-!
# Short names in reports

A check names its files by short names, and a report shortens the name of a finding once more.
Since a short name cannot be shortened any more, the report shows it as it stands.  With what is
known of short names this gives the main result, `shortening_keeps_files`: a short name stands for
the file that it was made from, from the search for files to the report on them.
-/

namespace LoopLint

/-- The findings of a check name their files by short names. -/
lemma relativize_filename_of_mem_diagnosticsOf {env : Environment} {d : Path}
    (hd : env.directory = some d) {parse : Parser} {ps : List Path} {x : Diagnostic}
    (hx : x ∈ diagnosticsOf env parse ps) : env.relativize x.filename = x.filename.text := by
  obtain ⟨p, -, l, -, rfl⟩ := mem_diagnosticsOf_iff.mp hx
  rw [l.filename_diagnosticIn, Environment.relativize, Environment.relativize, hd]
  exact Path.relativize_relativize d p

/-- **Shortening a path never changes which file it names.**  Seen from a known directory, a short
name normalizes to the same path as the one that it was made from, it cannot be shortened any more,
and different files have different short names.  So a check reads under the short name of a path
what is at that path, and reports show the findings of a check under the names that these have
already. -/
theorem shortening_keeps_files (env : Environment) (d : Path) (hd : env.directory = some d) :
    Path.KeepsFiles env.normalize env.relativize ∧
      (env.StandsIn d → ∀ p, p.Canonical →
        ((env.relativize p).utf8ByteSize < Environment.pathLimit →
            env.locate ⟨env.relativize p⟩ = env.destination (Path.walk p.components)) ∧
          (p.text.utf8ByteSize < Environment.pathLimit →
            env.readText ⟨env.relativize p⟩ = env.readText p)) ∧
      ∀ (parse : Parser) (ps : List Path), (∀ p ∈ ps, p.Canonical) →
        ∀ (color : Bool) (failures : List (String × Failure)),
          (Report.concise env color (diagnosticsOf env parse ps) failures).written =
              (Report.conciseWriter color).text Path.text (diagnosticsOf env parse ps) ∧
            (Report.full env color (diagnosticsOf env parse ps) failures).written =
              (Report.ownWriter env color).text Path.text (diagnosticsOf env parse ps) := by
  have hkeeps := Path.keepsFiles d
  have hnormalize : env.normalize = Path.normalize (some d) := by
    funext p
    rw [Environment.normalize, hd]
  have hrelativize : env.relativize = Path.relativize (some d) := by
    funext p
    rw [Environment.relativize, hd]
  refine ⟨by rwa [hnormalize, hrelativize], ?_, ?_⟩
  · intro hstands p hp
    refine ⟨?_, hstands.readText_relativize hp⟩
    obtain ⟨names, hnames, rfl⟩ := hp
    rw [Path.walk_components_ofNames hnames]
    exact hstands.locate_relativize hnames
  · intro parse ps hps color failures
    have halike := Report.spelledAlike_diagnosticsOf hd parse hps
    have hnames : ∀ w : Report.Writer, w.text env.relativize (diagnosticsOf env parse ps) =
        w.text Path.text (diagnosticsOf env parse ps) := by
      intro w
      refine Report.Writer.text_congr fun x hx => ?_
      rw [Report.Writer.piece, Report.Writer.piece, relativize_filename_of_mem_diagnosticsOf hd hx]
    rw [halike.written_concise, halike.written_full, hnames, hnames]
    exact ⟨rfl, rfl⟩

/-- Behind the link, the file is read under a short name, which is the same for all spellings of its
path and for itself. -/
theorem shortening_keeps_files_linkedWorld :
    linkedWorld.directory = some ⟨"/work"⟩ ∧ linkedWorld.StandsIn ⟨"/work"⟩ ∧
      linkedWorld.relativize ⟨"/../work//./alias/b/../a.js/"⟩ = "alias/a.js" ∧
      linkedWorld.relativize ⟨"alias/a.js"⟩ = "alias/a.js" ∧
      linkedWorld.normalize ⟨"alias/a.js"⟩ = ⟨"/work/alias/a.js"⟩ ∧
      linkedWorld.readText ⟨linkedWorld.relativize ⟨"/work/alias/a.js"⟩⟩ =
        linkedWorld.readText ⟨"/work/alias/a.js"⟩ := by
  have hcanonical : Path.Canonical ⟨"/work/alias/a.js"⟩ :=
    ⟨["work", "alias", "a.js"], by decide, by decide⟩
  have hshort : linkedWorld.relativize ⟨"/../work//./alias/b/../a.js/"⟩ = "alias/a.js" := by decide
  obtain ⟨hkeeps, hreads, -⟩ := shortening_keeps_files linkedWorld ⟨"/work"⟩ rfl
  refine ⟨rfl, standsIn_linkedWorld, hshort, ?_, by decide, ?_⟩
  · have htwice := hkeeps.shorten_shorten ⟨"/../work//./alias/b/../a.js/"⟩
    rwa [hshort] at htwice
  · exact (hreads standsIn_linkedWorld _ hcanonical).2 (by decide)

end LoopLint
