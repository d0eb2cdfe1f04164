import LoopLint.Proofs.Discovery.Found
import Mathlib.Data.List.Basic

/-!
# What a walk finds

A walk goes down a directory tree and leaves out some entries, each with all that is below it.
`Visit.Finds` says which files it finds, without an order of visits: a file is found in a directory
if neither it nor a directory on the way to it is left out.  The visits that the program makes are
to just these files (`Visit.mem_belowAll_iff_finds`).

Two things follow.  The less is excluded, the more is found, and the visits keep their order
(`Visit.belowAll_sublist`).  And from the directory down to a file that is found, nothing is
excluded (`Visit.Finds.clearWay`).
-/

namespace LoopLint

/-! ### Going down -/

namespace Path

/-- The paths on the way down from a directory along some names. -/
def way (directory : Path) : List String → List Path
  | [] => []
  | n :: ns => directory.join ⟨n⟩ :: (directory.join ⟨n⟩).way ns

/-- There is a way from the directory down to the file `p`, and nothing on it is excluded: neither
the directories on the way nor the file. -/
def ClearWay (excluded : Path → Bool → Prop) (directory p : Path) : Prop :=
  ∃ names, (directory.way names).getLast? = some p ∧
    (∀ d ∈ (directory.way names).dropLast, ¬excluded d true) ∧ ¬excluded p false

variable {excluded : Path → Bool → Prop} {directory : Path} {name : String}

/-- The way to an entry of the directory is clear if the entry is not excluded. -/
lemma clearWay_join (h : ¬excluded (directory.join ⟨name⟩) false) :
    ClearWay excluded directory (directory.join ⟨name⟩) := by
  refine ⟨[name], rfl, ?_, h⟩
  intro d hd
  cases hd

/-- A clear way from an entry of the directory is one from the directory. -/
lemma ClearWay.of_join {p : Path} (h : ClearWay excluded (directory.join ⟨name⟩) p)
    (hname : ¬excluded (directory.join ⟨name⟩) true) : ClearWay excluded directory p := by
  obtain ⟨names, hlast, hclear, hp⟩ := h
  have hne : (directory.join ⟨name⟩).way names ≠ [] := by
    intro hnil
    rw [hnil] at hlast
    cases hlast
  refine ⟨name :: names, ?_, ?_, hp⟩
  · rw [way, List.getLast?_cons_of_ne_nil hne, hlast]
  · intro d hd
    rw [way, List.dropLast_cons_of_ne_nil hne] at hd
    rcases List.mem_cons.mp hd with rfl | hd
    · exact hname
    · exact hclear d hd

end Path

/-- All that `y` excludes is also excluded by `x`. -/
def Exclusion.Covers (x y : Exclusion) : Prop :=
  ∀ p isDirectory, y.excludes p isDirectory = true → x.excludes p isDirectory = true

namespace Visit

/-! ### The files that a walk finds -/

/-- An entry of a directory is left out of a walk: it is excluded, an ignore rule speaks against it,
or it is hidden and no ignore rule takes it back in. -/
def LeftOut (excluded : Path → Bool → Prop) (scope : IgnoreScope) (p : Path) (name : String)
    (isDirectory : Bool) : Prop :=
  excluded p isDirectory ∨ scope.verdict? p isDirectory = some .ignore ∨
    scope.verdict? p isDirectory = none ∧ isHidden name = true

/-- The file `p` is found in a directory with the given entries, where some ignore rules are in
force.  Either it is one of the entries, or it is found in one of them; in both cases the entry is
not left out. -/
inductive Finds (env : Environment) (excluded : Path → Bool → Prop) :
    IgnoreScope → Path → List (String × Entry) → Path → Prop
  | file {scope : IgnoreScope} {directory : Path} {es : List (String × Entry)} {name : String}
      {e : Entry} (hmem : (name, e) ∈ es) (hfile : e.isDirectory = false)
      (hkept : ¬LeftOut excluded scope (directory.join ⟨name⟩) name false) :
      Finds env excluded scope directory es (directory.join ⟨name⟩)
  | inside {scope : IgnoreScope} {directory : Path} {es inner : List (String × Entry)}
      {name : String} {p : Path} (hmem : (name, .directory inner) ∈ es)
      (hkept : ¬LeftOut excluded scope (directory.join ⟨name⟩) name true)
      (hfinds : Finds env excluded (scope.enter env (directory.join ⟨name⟩))
        (directory.join ⟨name⟩) inner p) :
      Finds env excluded scope directory es p

section Finds

variable {env : Environment} {excluded excluded' : Path → Bool → Prop} {scope : IgnoreScope}
  {directory p : Path} {es es' : List (String × Entry)}

/-- With fewer exclusions, fewer entries are left out. -/
lemma LeftOut.mono {name : String} {isDirectory : Bool}
    (h : ∀ p isDirectory, excluded p isDirectory → excluded' p isDirectory)
    (hout : LeftOut excluded scope p name isDirectory) :
    LeftOut excluded' scope p name isDirectory := by
  rcases hout with hexcluded | hrest
  · exact .inl (h p isDirectory hexcluded)
  · exact .inr hrest

/-- With fewer exclusions, no fewer files are found. -/
theorem Finds.anti (h : ∀ p isDirectory, excluded' p isDirectory → excluded p isDirectory)
    (hfinds : Finds env excluded scope directory es p) :
    Finds env excluded' scope directory es p := by
  induction hfinds with
  | file hmem hfile hkept => exact .file hmem hfile fun hout => hkept (hout.mono h)
  | inside hmem hkept _ ih => exact .inside hmem (fun hout => hkept (hout.mono h)) ih

/-- With more entries more is found. -/
lemma Finds.of_subset (h : es ⊆ es') (hfinds : Finds env excluded scope directory es p) :
    Finds env excluded scope directory es' p := by
  cases hfinds with
  | file hmem hfile hkept => exact .file (h hmem) hfile hkept
  | inside hmem hkept hfinds => exact .inside (h hmem) hkept hfinds

/-- Nothing is excluded on the way to a file that is found. -/
theorem Finds.clearWay (hfinds : Finds env excluded scope directory es p) :
    Path.ClearWay excluded directory p := by
  induction hfinds with
  | file hmem hfile hkept => exact Path.clearWay_join fun hexcluded => hkept (.inl hexcluded)
  | inside hmem hkept _ ih => exact ih.of_join fun hexcluded => hkept (.inl hexcluded)

end Finds

/-! ### The visits of the program -/

/-- An entry is skipped if it is to be left out. -/
lemma skips_eq_true_iff (x : Exclusion) (scope : IgnoreScope) (p : Path) (name : String)
    (isDirectory : Bool) : skips x scope p name isDirectory = true ↔
      LeftOut (fun p isDirectory => x.excludes p isDirectory = true) scope p name isDirectory := by
  unfold skips LeftOut
  rw [Bool.or_eq_true]
  cases scope.verdict? p isDirectory with
  | none => simp
  | some verdict => cases verdict <;> simp

section Visits

variable {env : Environment} {x y : Exclusion} {q : Path} {given : Bool}

/-- The visits to an entry that is not left out are among those to all entries. -/
lemma mem_belowAll_of_mem {scope : IgnoreScope} {directory : Path} {v : Visit}
    {es : List (String × Entry)} {name : String} {e : Entry} (hmem : (name, e) ∈ es)
    (hkept : skips x scope (directory.join ⟨name⟩) name e.isDirectory = false)
    (hv : v ∈ below env x scope (directory.join ⟨name⟩) false e) :
    v ∈ belowAll env x scope directory es := by
  induction es with
  | nil => cases hmem
  | cons head es ih =>
    rw [belowAll.eq_def]
    apply List.mem_append.mpr
    rcases List.mem_cons.mp hmem with rfl | hmem
    · left
      rwa [hkept, if_neg Bool.false_ne_true]
    · exact .inr (ih hmem)

mutual

/-- A file that is visited at an entry or below it is that entry, or it is found inside. -/
theorem of_mem_below (scope : IgnoreScope) (p : Path) (g : Bool) : (e : Entry) →
    entry q given false ∈ below env x scope p g e →
      e.isDirectory = false ∧ q = p ∧ given = g ∨
        given = false ∧ ∃ es, e = .directory es ∧
          Finds env (fun p d => x.excludes p d = true) (scope.enter env p) p es q
  | .file _, hv => by
    rw [below, List.mem_singleton, entry.injEq] at hv
    exact .inl ⟨rfl, hv.1, hv.2.1⟩
  | .link _, hv => by
    rw [below, List.mem_singleton, entry.injEq] at hv
    exact .inl ⟨rfl, hv.1, hv.2.1⟩
  | .directory es, hv => by
    rw [below, List.mem_cons] at hv
    rcases hv with hv | hv
    · simp at hv
    · obtain ⟨hgiven, hfinds⟩ := of_mem_belowAll (scope.enter env p) p es hv
      exact .inr ⟨hgiven, es, rfl, hfinds⟩

/-- A file that is visited below some entries is found there. -/
theorem of_mem_belowAll (scope : IgnoreScope) (directory : Path) : (es : List (String × Entry)) →
    entry q given false ∈ belowAll env x scope directory es →
      given = false ∧ Finds env (fun p d => x.excludes p d = true) scope directory es q
  | [], hv => by
    rw [belowAll] at hv
    cases hv
  | (name, e) :: es, hv => by
    rw [belowAll, List.mem_append] at hv
    rcases hv with hv | hv
    · split at hv
      · cases hv
      · next hkept =>
        rw [skips_eq_true_iff] at hkept
        rcases of_mem_below scope _ false e hv with ⟨hfile, rfl, rfl⟩ | ⟨rfl, inner, rfl, hfinds⟩
        · rw [hfile] at hkept
          exact ⟨rfl, .file List.mem_cons_self hfile hkept⟩
        · exact ⟨rfl, .inside List.mem_cons_self hkept hfinds⟩
    · obtain ⟨hgiven, hfinds⟩ := of_mem_belowAll scope directory es hv
      exact ⟨hgiven, hfinds.of_subset (List.subset_cons_self _ es)⟩

end

/-- A file that is found below some entries is visited. -/
lemma mem_belowAll_of_finds {scope : IgnoreScope} {directory : Path} {es : List (String × Entry)}
    (hfinds : Finds env (fun p d => x.excludes p d = true) scope directory es q) :
    entry q false false ∈ belowAll env x scope directory es := by
  induction hfinds with
  | @file scope directory es name e hmem hfile hkept =>
    apply mem_belowAll_of_mem hmem
    · rwa [hfile, ← Bool.not_eq_true, skips_eq_true_iff]
    · cases e with
      | file content => exact List.mem_singleton.mpr (by rfl)
      | link target => exact List.mem_singleton.mpr (by rfl)
      | directory inner => cases hfile
  | @inside scope directory es inner name q hmem hkept _ ih =>
    apply mem_belowAll_of_mem hmem
    · rwa [Entry.isDirectory, ← Bool.not_eq_true, skips_eq_true_iff]
    · rw [below]
      exact List.mem_cons_of_mem _ ih

/-- The files that the program visits in a directory are those that a walk finds there. -/
theorem mem_belowAll_iff_finds {scope : IgnoreScope} {directory : Path}
    {es : List (String × Entry)} : entry q given false ∈ belowAll env x scope directory es ↔
      given = false ∧ Finds env (fun p d => x.excludes p d = true) scope directory es q := by
  constructor
  · exact of_mem_belowAll scope directory es
  · rintro ⟨rfl, hfinds⟩
    exact mem_belowAll_of_finds hfinds

/-- A walk from a given path visits the file there, or the files that it finds in the directory
there. -/
theorem mem_ofStart_iff {p : Path} : entry q given false ∈ ofStart env x p ↔
    given = true ∧ q = p ∧ (∃ e, env.find p = .ok e ∧ e.isDirectory = false) ∨
      given = false ∧ ∃ es, env.find p = .ok (.directory es) ∧
        Finds env (fun p d => x.excludes p d = true) ((IgnoreScope.atStart env p).1.enter env p) p
          es q := by
  unfold ofStart
  cases hfind : env.find p with
  | error e => simp
  | ok e =>
    cases e with
    | file content => simp [Entry.isDirectory, and_comm]
    | link target => simp [Entry.isDirectory, and_comm]
    | directory es =>
      have hfailure : ∀ errors : List String, entry q given false ∉
          (if errors.isEmpty then [] else [failure ("\n".intercalate errors)]) := by
        intro errors hmem
        split at hmem <;> simp at hmem
      simp only [List.mem_append, hfailure, false_or, below, List.mem_cons, mem_belowAll_iff_finds]
      simp [Entry.isDirectory]

/-- The visits that give a file are those to files that are given or in a language. -/
lemma result?_eq_ok_iff {v : Visit} {p : Path} : v.result? = some (.ok p) ↔
    ∃ given, v = entry p given false ∧ (given = true ∨ p.isSource = true) := by
  constructor
  · intro hresult
    cases v with
    | failure message => cases hresult
    | entry q given isDirectory =>
      rw [result?] at hresult
      split at hresult
      · next hfile =>
        obtain rfl : q = p := by simpa using hresult
        rw [Bool.and_eq_true, Bool.not_eq_true', Bool.or_eq_true] at hfile
        obtain ⟨rfl, hfile⟩ := hfile
        exact ⟨given, rfl, hfile⟩
      · cases hresult
  · rintro ⟨given, rfl, hfile⟩
    rw [result?, if_pos]
    simpa using hfile

/-! ### Fewer exclusions -/

/-- Rules that cover others skip what these skip. -/
lemma skips_of_covers (h : x.Covers y) {scope : IgnoreScope} {p : Path} {name : String}
    {isDirectory : Bool} (hskips : skips y scope p name isDirectory = true) :
    skips x scope p name isDirectory = true := by
  rw [skips_eq_true_iff] at hskips ⊢
  exact hskips.mono h

mutual

/-- With fewer exclusions the same visits are made, in the same order, with more between them. -/
theorem below_sublist (h : x.Covers y) (scope : IgnoreScope) (p : Path) (g : Bool) : (e : Entry) →
    (below env x scope p g e).Sublist (below env y scope p g e)
  | .file _ => by rw [below, below]
  | .link _ => by rw [below, below]
  | .directory es => by
    rw [below, below]
    exact (belowAll_sublist h (scope.enter env p) p es).cons_cons _

/-- Rules that cover others leave no more visits below some entries. -/
theorem belowAll_sublist (h : x.Covers y) (scope : IgnoreScope) (directory : Path) :
    (es : List (String × Entry)) →
      (belowAll env x scope directory es).Sublist (belowAll env y scope directory es)
  | [] => by rw [belowAll, belowAll]
  | (name, e) :: es => by
    rw [belowAll, belowAll]
    refine List.Sublist.append ?_ (belowAll_sublist h scope directory es)
    split
    · exact List.nil_sublist _
    · next hkept =>
      rw [if_neg fun hskips => hkept (skips_of_covers h hskips)]
      exact below_sublist h scope _ false e

end

/-- Rules that cover others leave no more visits from a start. -/
lemma ofStart_sublist (h : x.Covers y) (p : Path) :
    (ofStart env x p).Sublist (ofStart env y p) := by
  unfold ofStart
  split
  · exact List.Sublist.refl _
  · exact (List.Sublist.refl _).append (below_sublist h _ p true _)
  · exact List.Sublist.refl _

end Visits
end Visit

/-- With fewer exclusions a search makes the same visits, with more between them. -/
theorem visits_sublist {x y : Exclusion} (h : x.Covers y) (env : Environment) (paths : List Path) :
    (visits env x paths).Sublist (visits env y paths) := by
  induction paths with
  | nil => exact List.Sublist.refl _
  | cons p paths ih =>
    unfold visits at ih ⊢
    rw [List.flatMap_cons, List.flatMap_cons]
    exact (Visit.ofStart_sublist h (env.normalize p)).append ih

end LoopLint
