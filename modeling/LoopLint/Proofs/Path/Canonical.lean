import LoopLint.Environment.Basic
import Mathlib.Data.List.Basic

/-!
# Canonical paths

A path can be spelled in many ways.  The canonical spelling is the one that `Path.ofNames` gives to
a list of names: it starts at the root, and it has neither `.` nor `..` nor empty segments.  Such a
path is determined by its components (`Canonical.eq_of_components_eq`).

Normalizing a path gives a canonical one, and so does going down to an entry.  Seen from a working
directory, canonical paths may become relative, but different ones stay different
(`Canonical.eq_of_components_relativize_eq`).
-/

namespace LoopLint

/-! ### Splitting what was joined -/

namespace Text

/-- A text without the separator is one part. -/
lemma splitOn_of_not_mem {sep : Char} {cs : List Char} (h : sep ∉ cs) : splitOn sep cs = [cs] := by
  induction cs with
  | nil => rfl
  | cons c cs ih =>
    rw [List.mem_cons, not_or] at h
    rw [splitOn, if_neg (Ne.symm h.1), ih h.2]

/-- What stands before the first separator is the first part. -/
lemma splitOn_append {sep : Char} {cs : List Char} (h : sep ∉ cs) (rest : List Char) :
    splitOn sep (cs ++ sep :: rest) = cs :: splitOn sep rest := by
  induction cs with
  | nil => rw [List.nil_append, splitOn, if_pos rfl]
  | cons c cs ih =>
    rw [List.mem_cons, not_or] at h
    rw [List.cons_append, splitOn, if_neg (Ne.symm h.1), ih h.2]

/-- No part holds the separator. -/
lemma not_mem_of_mem_splitOn {sep : Char} {cs part : List Char} (h : part ∈ splitOn sep cs) :
    sep ∉ part := by
  induction cs generalizing part with
  | nil =>
    rw [splitOn, List.mem_singleton] at h
    simp [h]
  | cons c cs ih =>
    rw [splitOn] at h
    by_cases hc : c = sep
    · rw [if_pos hc] at h
      rcases List.mem_cons.mp h with rfl | h
      · exact List.not_mem_nil
      · exact ih h
    · rw [if_neg hc] at h
      cases hparts : splitOn sep cs with
      | nil => exact absurd hparts (splitOn_ne_nil sep cs)
      | cons first parts =>
        rw [hparts] at h ih
        rcases List.mem_cons.mp h with rfl | h
        · rw [List.mem_cons, not_or]
          exact ⟨Ne.symm hc, ih List.mem_cons_self⟩
        · exact ih (List.mem_cons_of_mem _ h)

end Text

namespace Path

/-! ### Names -/

/-- A text that can be the name of an entry. -/
def IsName (s : String) : Prop :=
  s ≠ "" ∧ s ≠ "." ∧ s ≠ ".." ∧ '/' ∉ s.toList

instance : DecidablePred IsName := fun s =>
  inferInstanceAs (Decidable (s ≠ "" ∧ s ≠ "." ∧ s ≠ ".." ∧ '/' ∉ s.toList))

/-- A name stands for itself. -/
lemma IsName.component? {s : String} (h : IsName s) : component? s = some (.name s) := by
  obtain ⟨hempty, hdot, hdots, -⟩ := h
  rw [Path.component?, if_neg (by simp [hempty, hdot]), if_neg hdots]

/-- A name does not start with a slash. -/
lemma IsName.head?_ne {s : String} (h : IsName s) : s.toList.head? ≠ some '/' := by
  intro hhead
  exact h.2.2.2 (List.mem_of_mem_head? hhead)

/-! ### Steps -/

/-- A step that may stand anywhere in a path: it goes up, or to an entry. -/
def IsStep : Component → Prop
  | .up => True
  | .name s => IsName s
  | _ => False

/-- Components that a path may have behind its root.  Only a relative path may start with a `.`. -/
def Fits (absolute : Bool) : List Component → Prop
  | [] => True
  | c :: cs => (IsStep c ∨ absolute = false ∧ c = .here) ∧ ∀ d ∈ cs, IsStep d

/-- The text of a step stands for the step. -/
lemma IsStep.component?_text {c : Component} (h : IsStep c) : component? c.text = some c := by
  cases c with
  | root => cases h
  | here => cases h
  | up => decide
  | name s => exact IsName.component? h

/-- The texts of some steps stand for the steps. -/
lemma filterMap_component?_text {cs : List Component} (h : ∀ c ∈ cs, IsStep c) :
    (cs.map Component.text).filterMap component? = cs := by
  induction cs with
  | nil => rfl
  | cons c cs ih =>
    have hrest := ih fun d hd => h d (List.mem_cons_of_mem c hd)
    rw [List.map_cons, List.filterMap_cons_some (h c List.mem_cons_self).component?_text, hrest]

/-- What a segment stands for is a step. -/
lemma isStep_of_mem_filterMap {p : Path} {c : Component}
    (h : c ∈ p.segments.filterMap component?) : IsStep c := by
  obtain ⟨segment, hmem, hsegment⟩ := List.mem_filterMap.mp h
  rw [component?] at hsegment
  split at hsegment
  · cases hsegment
  · next hplain =>
    obtain ⟨hempty, hdot⟩ := not_or.mp hplain
    split at hsegment
    · cases hsegment
      exact trivial
    · next hdots =>
      cases hsegment
      refine ⟨hempty, hdot, hdots, ?_⟩
      obtain ⟨part, hpart, rfl⟩ := List.mem_map.mp hmem
      rw [String.toList_ofList]
      exact Text.not_mem_of_mem_splitOn hpart

/-- The names in a path can be names of entries. -/
lemma isName_of_mem_components {p : Path} {s : String} (h : .name s ∈ p.components) : IsName s := by
  rw [components, List.mem_append] at h
  rcases h with h | h
  · split at h
    · simp at h
    · split at h <;> simp at h
  · exact isStep_of_mem_filterMap h

namespace Fits

variable {absolute : Bool} {cs ds : List Component}

/-- Steps fit behind a root and into a relative path. -/
lemma of_forall (h : ∀ c ∈ cs, IsStep c) : Fits absolute cs := by
  cases cs with
  | nil => exact trivial
  | cons c cs =>
    exact ⟨.inl (h c List.mem_cons_self), fun d hd => h d (List.mem_cons_of_mem c hd)⟩

/-- The first components of a path fit like all of them. -/
lemma of_isPrefix (h : Fits absolute cs) (hds : ds <+: cs) : Fits absolute ds := by
  cases ds with
  | nil => exact trivial
  | cons d ds =>
    obtain ⟨rest, rfl⟩ := hds
    exact ⟨h.1, fun e he => h.2 e (List.mem_append_left rest he)⟩

/-- The text of a component behind the root is a segment that is not empty. -/
lemma text_of_mem (h : Fits absolute cs) {c : Component} (hc : c ∈ cs) :
    c.text ≠ "" ∧ '/' ∉ c.text.toList := by
  have htext : ∀ d, IsStep d → d.text ≠ "" ∧ '/' ∉ d.text.toList := by
    intro d hd
    cases d with
    | root => cases hd
    | here => cases hd
    | up => decide
    | name s => exact ⟨hd.1, hd.2.2.2⟩
  cases cs with
  | nil => cases hc
  | cons d cs =>
    rcases List.mem_cons.mp hc with rfl | hc
    · rcases h.1 with hstep | ⟨-, rfl⟩
      · exact htext c hstep
      · decide
    · exact htext c (h.2 c hc)

end Fits

/-! ### The components of joined steps -/

/-- A text before the first slash is the first segment. -/
lemma segments_append_slash {s : String} (h : '/' ∉ s.toList) (rest : String) :
    segments ⟨s ++ "/" ++ rest⟩ = s :: segments ⟨rest⟩ := by
  have htext : (s ++ "/" ++ rest).toList = s.toList ++ '/' :: rest.toList := by
    simp [String.toList_append]
  rw [segments, htext, Text.splitOn_append h, List.map_cons, String.ofList_toList, segments]

/-- Texts without slashes are the segments of the path that they are joined to. -/
lemma segments_intercalate {names : List String} (hne : names ≠ [])
    (h : ∀ n ∈ names, '/' ∉ n.toList) : segments ⟨"/".intercalate names⟩ = names := by
  induction names with
  | nil => exact absurd rfl hne
  | cons n names ih =>
    have hn := h n List.mem_cons_self
    cases names with
    | nil =>
      rw [segments, String.intercalate_singleton, Text.splitOn_of_not_mem hn, List.map_singleton,
        String.ofList_toList]
    | cons m names =>
      rw [String.intercalate_cons_cons, segments_append_slash hn]
      rw [ih (List.cons_ne_nil m names) fun k hk => h k (List.mem_cons_of_mem n hk)]

/-- A path from the root has an empty segment before its others. -/
lemma segments_slash_append (s : String) : segments ⟨"/" ++ s⟩ = "" :: segments ⟨s⟩ := by
  have hslash := segments_append_slash (s := "") (by simp) s
  rwa [String.empty_append] at hslash

/-- The segments of joined steps that stand for something. -/
lemma filterMap_segments_intercalate {cs : List Component} (h : ∀ c ∈ cs, IsStep c) :
    (segments ⟨"/".intercalate (cs.map Component.text)⟩).filterMap component? = cs := by
  by_cases hne : cs = []
  · subst hne
    decide
  · have hslash : ∀ n ∈ cs.map Component.text, '/' ∉ n.toList := by
      intro n hn
      obtain ⟨c, hc, rfl⟩ := List.mem_map.mp hn
      exact ((Fits.of_forall h : Fits true cs).text_of_mem hc).2
    rw [segments_intercalate (by simpa using hne) hslash, filterMap_component?_text h]

/-- Joined steps make a path from the root or a relative one, as asked for. -/
lemma isAbsolute_ofSteps {absolute : Bool} {cs : List Component} (h : Fits absolute cs) :
    (ofSteps absolute cs).isAbsolute = absolute := by
  cases absolute with
  | true => simp [isAbsolute, ofSteps, String.toList_append]
  | false =>
    cases cs with
    | nil => decide
    | cons c cs =>
      -- The text starts with that of the first step, which is not empty and has no slash.
      obtain ⟨hne, hslash⟩ := h.text_of_mem List.mem_cons_self
      obtain ⟨x, xs, hxs⟩ : ∃ x xs, c.text.toList = x :: xs :=
        List.exists_cons_of_ne_nil (by simpa using hne)
      have hhead : (ofSteps false (c :: cs)).text.toList.head? = some x := by
        cases cs with
        | nil => simp [ofSteps, hxs]
        | cons d cs => simp [ofSteps, String.intercalate_cons_cons, hxs]
      have hx : x ≠ '/' := by
        rintro rfl
        exact hslash (hxs ▸ List.mem_cons_self)
      rw [isAbsolute, hhead]
      simpa using hx

/-- The components of a path that is joined from steps. -/
lemma components_ofSteps {absolute : Bool} {cs : List Component} (h : Fits absolute cs) :
    (ofSteps absolute cs).components = (if absolute then [.root] else []) ++ cs := by
  have habsolute := isAbsolute_ofSteps h
  cases absolute with
  | true =>
    have hsteps : ∀ c ∈ cs, IsStep c := by
      cases cs with
      | nil => simp
      | cons c cs => exact List.forall_mem_cons.mpr ⟨by simpa using h.1, h.2⟩
    rw [components, habsolute, if_pos rfl, if_pos rfl, ofSteps, if_pos rfl, segments_slash_append,
      List.filterMap_cons_none (by decide), filterMap_segments_intercalate hsteps]
  | false =>
    rw [components, habsolute]
    cases cs with
    | nil => decide
    | cons c cs =>
      have hsegments : (ofSteps false (c :: cs)).segments = (c :: cs).map Component.text := by
        rw [ofSteps, if_neg Bool.false_ne_true, String.empty_append]
        refine segments_intercalate (by simp) fun n hn => ?_
        obtain ⟨d, hd, rfl⟩ := List.mem_map.mp hn
        exact (h.text_of_mem hd).2
      rw [hsegments, List.map_cons, List.head?_cons]
      rcases h.1 with hstep | ⟨-, rfl⟩
      · have hdot : c.text ≠ "." := by
          intro hdot
          have hnone := hstep.component?_text
          rw [hdot] at hnone
          cases hnone
        have hall : ∀ d ∈ c :: cs, IsStep d := List.forall_mem_cons.mpr ⟨hstep, h.2⟩
        simpa [hdot] using filterMap_component?_text hall
      · rw [List.filterMap_cons_none (by decide), filterMap_component?_text h.2]
        rfl

/-- Names of entries are steps. -/
lemma isStep_of_mem_map_name {names : List String} (h : ∀ n ∈ names, IsName n) :
    ∀ c ∈ names.map Component.name, IsStep c := by
  intro c hc
  obtain ⟨n, hn, rfl⟩ := List.mem_map.mp hc
  exact h n hn

/-- The text of the step to an entry is the name of the entry. -/
lemma map_text_map_name (names : List String) :
    (names.map Component.name).map Component.text = names := by
  rw [List.map_map]
  exact List.map_id names

/-- A path from the root along names takes the steps to them. -/
lemma ofNames_eq_ofSteps (names : List String) :
    ofNames names = ofSteps true (names.map Component.name) := by
  rw [ofSteps, map_text_map_name, if_pos rfl, ofNames]

/-- Joined names take the steps to them. -/
lemma intercalate_eq_ofSteps (names : List String) :
    (⟨"/".intercalate names⟩ : Path) = ofSteps false (names.map Component.name) := by
  rw [ofSteps, map_text_map_name, if_neg Bool.false_ne_true, String.empty_append]

/-- Names that are joined make a relative path. -/
lemma isAbsolute_intercalate {names : List String} (h : ∀ n ∈ names, IsName n) :
    isAbsolute ⟨"/".intercalate names⟩ = false := by
  rw [intercalate_eq_ofSteps, isAbsolute_ofSteps (Fits.of_forall (isStep_of_mem_map_name h))]

/-- The components of names that are joined to a relative path. -/
lemma components_intercalate {names : List String} (h : ∀ n ∈ names, IsName n) :
    components ⟨"/".intercalate names⟩ = names.map Component.name := by
  rw [intercalate_eq_ofSteps, components_ofSteps (Fits.of_forall (isStep_of_mem_map_name h))]
  rfl

/-- A path made of names starts at the root. -/
lemma isAbsolute_ofNames (names : List String) : (ofNames names).isAbsolute = true := by
  simp [isAbsolute, ofNames, String.toList_append]

/-- A path from the root has an empty segment before its names. -/
lemma segments_ofNames (names : List String) :
    (ofNames names).segments = "" :: segments ⟨"/".intercalate names⟩ :=
  segments_slash_append _

/-- The components of a path from the root. -/
lemma components_ofNames {names : List String} (h : ∀ n ∈ names, IsName n) :
    (ofNames names).components = .root :: names.map Component.name := by
  rw [ofNames_eq_ofSteps, components_ofSteps (Fits.of_forall (isStep_of_mem_map_name h))]
  rfl

/-! ### Walking along components -/

/-- Steps to names lead down, each name to a directory below the last. -/
lemma foldl_step_names (names start : List String) :
    (names.map Component.name).foldl step start = names.reverse ++ start := by
  induction names generalizing start with
  | nil => rfl
  | cons n names ih =>
    rw [List.map_cons, List.foldl_cons, ih, step, List.reverse_cons, List.append_assoc]
    rfl

/-- Seen from anywhere, a path from the root leads along its own names. -/
lemma namesFrom_ofNames (d : Path) {names : List String} (h : ∀ n ∈ names, IsName n) :
    namesFrom d (ofNames names) = names := by
  rw [namesFrom, components_ofNames h, walk, List.foldl_append, List.foldl_cons, step,
    foldl_step_names, List.append_nil, List.reverse_reverse]

/-- A path from the root leads along its own names. -/
lemma walk_components_ofNames {names : List String} (h : ∀ n ∈ names, IsName n) :
    walk (ofNames names).components = names := by
  rw [components_ofNames h, walk, List.foldl_cons, foldl_step_names, step, List.append_nil,
    List.reverse_reverse]

/-- A walk only leads along names that occur on it. -/
lemma mem_of_mem_walk {cs : List Component} {s : String} (h : s ∈ walk cs) : .name s ∈ cs := by
  have hfold : ∀ (cs : List Component) (start : List String), s ∈ cs.foldl step start →
      s ∈ start ∨ .name s ∈ cs := by
    intro cs
    induction cs with
    | nil => exact fun start hs => .inl hs
    | cons c cs ih =>
      intro start hs
      rw [List.foldl_cons] at hs
      rcases ih (step start c) hs with hs | hs
      · cases c with
        | root => cases hs
        | here => exact .inl hs
        | up => exact .inl (List.mem_of_mem_tail hs)
        | name n =>
          rcases List.mem_cons.mp hs with rfl | hs
          · exact .inr List.mem_cons_self
          · exact .inl hs
      · exact .inr (List.mem_cons_of_mem c hs)
  rw [walk, List.mem_reverse] at h
  exact (hfold cs [] h).resolve_left List.not_mem_nil

/-- A path leads along names of entries, from wherever it is seen. -/
lemma isName_of_mem_namesFrom {d p : Path} {s : String} (h : s ∈ namesFrom d p) : IsName s := by
  rcases List.mem_append.mp (mem_of_mem_walk h) with h | h
  · exact isName_of_mem_components h
  · exact isName_of_mem_components h

/-! ### Canonical paths -/

/-- The path goes down from the root along names of entries. -/
def Canonical (p : Path) : Prop :=
  ∃ names, (∀ n ∈ names, IsName n) ∧ p = ofNames names

/-- Different rows of names are different rows of components. -/
lemma map_name_injective : Function.Injective (List.map Component.name) :=
  List.map_injective_iff.mpr fun _ _ h => Component.name.inj h

/-- A canonical path is determined by its components. -/
theorem Canonical.eq_of_components_eq {p q : Path} (hp : p.Canonical) (hq : q.Canonical)
    (h : p.components = q.components) : p = q := by
  obtain ⟨names, hnames, rfl⟩ := hp
  obtain ⟨names', hnames', rfl⟩ := hq
  rw [components_ofNames hnames, components_ofNames hnames', List.cons.injEq] at h
  rw [map_name_injective h.2]

/-- A path is the same as itself. -/
lemma same_self (p : Path) : p.same p = true :=
  beq_self_eq_true p.components

/-- Being the same goes both ways. -/
lemma same_comm (p q : Path) : p.same q = q.same p :=
  BEq.comm

/-- Canonical paths that are the same are spelled alike. -/
lemma Canonical.eq_of_same {p q : Path} (hp : p.Canonical) (hq : q.Canonical)
    (h : p.same q = true) : p = q :=
  hp.eq_of_components_eq hq (eq_of_beq h)

/-- Normalizing makes a path canonical, however it is spelled. -/
theorem canonical_normalize (d p : Path) : (normalize (some d) p).Canonical :=
  ⟨namesFrom d p, fun _ hn => isName_of_mem_namesFrom hn, rfl⟩

/-- The last character of joined names is that of the last name. -/
lemma getLast?_intercalate_ne {names : List String} (h : ∀ n ∈ names, IsName n) (hne : names ≠ []) :
    ∃ c, ("/".intercalate names).toList.getLast? = some c ∧ c ≠ '/' := by
  induction names with
  | nil => exact absurd rfl hne
  | cons n names ih =>
    cases names with
    | nil =>
      have hn := h n List.mem_cons_self
      rw [String.intercalate_singleton]
      cases hlast : n.toList.getLast? with
      | none => exact absurd (List.getLast?_eq_none_iff.mp hlast) (by simpa using hn.1)
      | some c =>
        refine ⟨c, rfl, ?_⟩
        rintro rfl
        exact hn.2.2.2 (List.mem_of_mem_getLast? hlast)
    | cons m names =>
      obtain ⟨c, hlast, hc⟩ := ih (fun k hk => h k (List.mem_cons_of_mem n hk))
        (List.cons_ne_nil m names)
      refine ⟨c, ?_, hc⟩
      rw [String.intercalate_cons_cons, String.toList_append, List.getLast?_append, hlast,
        Option.some_or]

/-- Going down to an entry adds its name. -/
lemma join_ofNames {names : List String} (h : ∀ n ∈ names, IsName n) {n : String} (hn : IsName n) :
    (ofNames names).join ⟨n⟩ = ofNames (names ++ [n]) := by
  have habsolute : isAbsolute ⟨n⟩ = false := by
    simpa [isAbsolute] using hn.head?_ne
  rw [join, habsolute, if_neg Bool.false_ne_true]
  by_cases hne : names = []
  · subst hne
    rw [if_pos (by decide)]
    simp [ofNames]
  · obtain ⟨c, hlast, hc⟩ := getLast?_intercalate_ne h hne
    have htext : (ofNames names).text.toList.getLast? = some c := by
      rw [ofNames, String.toList_append, List.getLast?_append, hlast, Option.some_or]
    have hnonempty : (ofNames names).text ≠ "" := by
      intro hempty
      rw [hempty] at htext
      cases htext
    rw [if_neg (by simp [htext, hc, hnonempty])]
    simp only [ofNames, String.intercalate_append_of_ne_nil hne (List.cons_ne_nil n []),
      String.intercalate_singleton, String.append_assoc]

/-- An entry of a directory with a canonical path has a canonical path. -/
theorem Canonical.join {p : Path} (hp : p.Canonical) {n : String} (hn : IsName n) :
    (p.join ⟨n⟩).Canonical := by
  obtain ⟨names, hnames, rfl⟩ := hp
  refine ⟨names ++ [n], ?_, join_ofNames hnames hn⟩
  intro m hm
  rcases List.mem_append.mp hm with hm | hm
  · exact hnames m hm
  · rwa [List.mem_singleton.mp hm]

/-! ### Seen from the working directory -/

/-- Some names lie below others if they start with these. -/
lemma below?_eq_some_iff {ds names rest : List String} :
    below? ds names = some rest ↔ names = ds ++ rest := by
  induction ds generalizing names with
  | nil => simp [below?]
  | cons d ds ih =>
    cases names with
    | nil => simp [below?]
    | cons n names => by_cases h : d = n <;> simp [below?, h, ih, eq_comm]

/-- A canonical path is shown with the names below the working directory, or from the root. -/
lemma components_relativize (d : Path) {names : List String} (h : ∀ n ∈ names, IsName n) :
    (∃ rest, names = walk d.components ++ rest ∧
        components ⟨relativize (some d) (ofNames names)⟩ = rest.map Component.name) ∨
      components ⟨relativize (some d) (ofNames names)⟩ = .root :: names.map Component.name := by
  have hroot := components_ofNames h
  simp only [relativize, namesFrom_ofNames d h]
  split
  · next n rest hbelow =>
    have hnames := below?_eq_some_iff.mp hbelow
    refine .inl ⟨n :: rest, hnames, components_intercalate ?_⟩
    intro m hm
    exact h m (hnames ▸ List.mem_append_right _ hm)
  · exact .inr hroot

/-- Different files are shown under different names. -/
theorem Canonical.eq_of_components_relativize_eq {d p q : Path} (hp : p.Canonical)
    (hq : q.Canonical) (h : components ⟨relativize (some d) p⟩ =
      components ⟨relativize (some d) q⟩) : p = q := by
  obtain ⟨names, hnames, rfl⟩ := hp
  obtain ⟨names', hnames', rfl⟩ := hq
  rcases components_relativize d hnames with ⟨rest, hrest, hshown⟩ | hshown <;>
    rcases components_relativize d hnames' with ⟨rest', hrest', hshown'⟩ | hshown'
  · rw [hshown, hshown'] at h
    rw [hrest, hrest', map_name_injective h]
  · rw [hshown, hshown'] at h
    cases rest <;> simp at h
  · rw [hshown, hshown'] at h
    cases rest' <;> simp at h
  · rw [hshown, hshown', List.cons.injEq] at h
    rw [map_name_injective h.2]

end Path
end LoopLint
