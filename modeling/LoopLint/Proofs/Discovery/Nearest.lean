import LoopLint.Discovery.Settings
import LoopLint.Proofs.Path.Ancestors

/-!
# The nearest settings

A search for settings remembers the directories that it has seen and stops at them.  What it stands
for is a search of its own for every path: the nearest settings file above the path, up to the
user's own directory, and behind that the user's own settings (`placeFor?`).

Nothing is lost by stopping early.  The reason is an invariant, `Memory`: whatever a search from a
directory that was seen would find has been found already.  A visit of one path keeps it
(`Memory.step`), and so does a whole search (`Memory.run`).  The invariant rests on the directories
above a path being spelled plainly, so that they are known by their components.  The paths come
without `..` if the working directory is known, and the user's directory has to come so too: one
that is spelled with a `..` is not noticed on the way up.
-/

namespace LoopLint
namespace FoundSettings

/-! ### A search of its own for every path -/

/-- The directories of a row up to the user's own one, which is still among them. -/
def upToUser (user : Option Path) : List Path → List Path
  | [] => []
  | d :: ds => if user.any d.same then [d] else d :: upToUser user ds

/-- A directory with the settings file in it. -/
def placeIn? (env : Environment) (d : Path) : Option (Path × Path) :=
  (Settings.fileIn? env d).map fun file => (d, file)

/-- The first directory of a row with a settings file, as far as the user's own directory. -/
def nearest? (env : Environment) (user : Option Path) (ds : List Path) : Option (Path × Path) :=
  (upToUser user ds).findSome? (placeIn? env)

/-- The settings file for a path: the nearest one above it, or else the user's own one. -/
def placeFor? (env : Environment) (user : Option Path) (p : Path) : Option (Path × Path) :=
  (nearest? env user p.ancestors).or (user.bind (placeIn? env))

variable {env : Environment} {user : Option Path}

/-- A directory with a settings file is a place of settings. -/
lemma placeIn?_of_file {d file : Path} (h : Settings.fileIn? env d = some file) :
    placeIn? env d = some (d, file) := by
  rw [placeIn?, h, Option.map_some]

/-- A directory without a settings file is none. -/
lemma placeIn?_of_no_file {d : Path} (h : Settings.fileIn? env d = none) :
    placeIn? env d = none := by
  rw [placeIn?, h, Option.map_none]

/-- Settings are placed in the directory that was asked for. -/
lemma fst_of_placeIn? {d : Path} {place : Path × Path} (h : placeIn? env d = some place) :
    place.1 = d := by
  obtain ⟨file, -, rfl⟩ := Option.map_eq_some_iff.mp h
  rfl

/-- In no directories there are no settings. -/
lemma nearest?_nil : nearest? env user [] = none := rfl

/-- Settings in the first directory are the nearest. -/
lemma nearest?_cons_of_place {d : Path} {place : Path × Path} (h : placeIn? env d = some place)
    (ds : List Path) : nearest? env user (d :: ds) = some place := by
  rw [nearest?, upToUser]
  split <;> rw [List.findSome?_cons, h]

/-- Beyond the user's directory nothing is searched. -/
lemma nearest?_cons_user {d : Path} (h : placeIn? env d = none) (hd : user.any d.same = true)
    (ds : List Path) : nearest? env user (d :: ds) = none := by
  rw [nearest?, upToUser, if_pos hd, List.findSome?_cons, h, List.findSome?_nil]

/-- A directory without settings that is not the user's is passed by. -/
lemma nearest?_cons {d : Path} (h : placeIn? env d = none) (hd : ¬ user.any d.same = true)
    (ds : List Path) : nearest? env user (d :: ds) = nearest? env user ds := by
  rw [nearest?, upToUser, if_neg hd, List.findSome?_cons, h, nearest?]

/-- From any directory on the way to the nearest settings the same settings are found. -/
lemma placeFor?_of_suffix {p d : Path} {rest : List Path} (h : d :: rest <:+ p.ancestors)
    (hnearest : nearest? env user p.ancestors = nearest? env user (d :: rest)) :
    placeFor? env user d = placeFor? env user p := by
  rw [placeFor?, placeFor?, hnearest, (Path.ancestors_of_suffix h).2]

/-- The user's own directory has the user's own settings. -/
lemma placeFor?_user {u : Path} (hu : u.Canonical) :
    placeFor? env (some u) u = placeIn? env u := by
  obtain ⟨rest, hrest⟩ := hu.plain.ancestors_eq
  rw [placeFor?, hrest, Option.bind_some]
  cases hplace : placeIn? env u with
  | none =>
    have huser : (some u).any u.same = true := Path.same_self u
    rw [nearest?_cons_user hplace huser, Option.none_or]
  | some place => rw [nearest?_cons_of_place hplace, Option.some_or]

/-! ### One way up -/

/-- What is found on the way up is the nearest, in a directory that was not seen before. -/
lemma climb_eq_some {seen seen' ds : List Path} {place : Path × Path}
    (h : climb env user seen ds = (some place, seen')) :
    nearest? env user ds = some place ∧ seen.any place.1.same = false ∧ place.1 ∈ seen' := by
  fun_induction climb env user seen ds with
  | case1 seen => cases h
  | case2 seen d ds hseen => cases h
  | case3 seen d ds hseen file hfile =>
    cases h
    have hunseen : seen.any d.same = false := Bool.eq_false_iff.mpr hseen
    exact ⟨nearest?_cons_of_place (placeIn?_of_file hfile) ds, hunseen, List.mem_cons_self⟩
  | case4 seen d ds hseen hfile huser => cases h
  | case5 seen d ds hseen hfile huser ih =>
    have hplace := placeIn?_of_no_file hfile
    obtain ⟨hnearest, hunseen, hmem⟩ := ih h
    rw [List.any_cons, Bool.or_eq_false_iff] at hunseen
    exact ⟨(nearest?_cons hplace huser ds).trans hnearest, hunseen.2, hmem⟩

/-- A way up that finds nothing ends at the user's directory or at the root, or at a directory that
was seen before. -/
lemma climb_eq_none {seen seen' ds : List Path} (hds : ds.Pairwise fun d e => d.same e = false)
    (h : climb env user seen ds = (none, seen')) :
    nearest? env user ds = none ∨ ∃ d rest, d :: rest <:+ ds ∧ seen.any d.same = true ∧
      nearest? env user ds = nearest? env user (d :: rest) := by
  fun_induction climb env user seen ds with
  | case1 seen => exact .inl nearest?_nil
  | case2 seen d ds hseen => exact .inr ⟨d, ds, List.suffix_rfl, hseen, rfl⟩
  | case3 seen d ds hseen file hfile => cases h
  | case4 seen d ds hseen hfile huser =>
    have hplace := placeIn?_of_no_file hfile
    exact .inl (nearest?_cons_user hplace huser ds)
  | case5 seen d ds hseen hfile huser ih =>
    have hplace := placeIn?_of_no_file hfile
    rw [nearest?_cons hplace huser]
    obtain ⟨hd, hds⟩ := List.pairwise_cons.mp hds
    rcases ih hds h with hnone | ⟨e, rest, hsuffix, hmem, hnearest⟩
    · exact .inl hnone
    · -- the directory it ends at is not `d`, so it was seen before this way up
      have hne : e.same d = false := by
        rw [Path.same_comm]
        exact hd e (hsuffix.subset List.mem_cons_self)
      rw [List.any_cons, hne, Bool.false_or] at hmem
      exact .inr ⟨e, rest, hsuffix.trans (List.suffix_cons d ds), hmem, hnearest⟩

/-- A way up leaves no directory with settings behind, wherever it ends. -/
lemma of_mem_climb {seen seen' ds : List Path} {r : Option (Path × Path)}
    (h : climb env user seen ds = (r, seen')) {e : Path} (he : e ∈ seen') :
    e ∈ seen ∨ ∃ rest, e :: rest <:+ ds ∧
      nearest? env user ds = nearest? env user (e :: rest) := by
  fun_induction climb env user seen ds with
  | case1 seen =>
    cases h
    exact .inl he
  | case2 seen d ds hseen =>
    cases h
    exact .inl he
  | case3 seen d ds hseen file hfile =>
    cases h
    rcases List.mem_cons.mp he with rfl | he
    · exact .inr ⟨ds, List.suffix_rfl, rfl⟩
    · exact .inl he
  | case4 seen d ds hseen hfile huser =>
    cases h
    rcases List.mem_cons.mp he with rfl | he
    · exact .inr ⟨ds, List.suffix_rfl, rfl⟩
    · exact .inl he
  | case5 seen d ds hseen hfile huser ih =>
    have hplace := placeIn?_of_no_file hfile
    rcases ih h with he | ⟨rest, hsuffix, hnearest⟩
    · rcases List.mem_cons.mp he with rfl | he
      · exact .inr ⟨ds, List.suffix_rfl, rfl⟩
      · exact .inl he
    · refine .inr ⟨rest, hsuffix.trans (List.suffix_cons d ds), ?_⟩
      rw [nearest?_cons hplace huser, hnearest]

/-- Directories that were seen before stay seen. -/
lemma subset_climb {seen seen' ds : List Path} {r : Option (Path × Path)}
    (h : climb env user seen ds = (r, seen')) : seen ⊆ seen' := by
  fun_induction climb env user seen ds with
  | case1 seen =>
    cases h
    exact List.Subset.refl _
  | case2 seen d ds hseen =>
    cases h
    exact List.Subset.refl _
  | case3 seen d ds hseen file hfile =>
    cases h
    exact List.subset_cons_self d seen
  | case4 seen d ds hseen hfile huser =>
    cases h
    exact List.subset_cons_self d seen
  | case5 seen d ds hseen hfile huser ih =>
    exact List.Subset.trans (List.subset_cons_self d seen) (ih h)

/-! ### The visit of a path -/

/-- Looks for the settings of one path, in the directories that were not seen before. -/
def visit (env : Environment) (user : Option Path) (seen : List Path) (p : Path) :
    Option (Path × Path) × List Path :=
  match climb env user seen p.ancestors with
  | (some place, seen) => (some place, seen)
  | (none, seen) => fallback env user seen

/-- The settings files that a search for some paths comes to, in their order. -/
def reached (env : Environment) (user : Option Path) (seen : List Path) :
    List Path → List (Path × Path)
  | [] => []
  | p :: ps => (visit env user seen p).1.toList ++ reached env user (visit env user seen p).2 ps

/-- Settings that can be read are put before those that follow; others end the search. -/
lemma value_loadThen (origin : String) (place : Path × Path)
    (next : Logged (Except SettingsError (List FoundSettings))) :
    (loadThen env origin place next).value =
      (load env place.1 place.2).bind fun s => next.value.map (s :: ·) := by
  rw [loadThen, Logged.value_bind]
  cases load env place.1 place.2 <;> rfl

/-- A search loads the files that it comes to, and fails with the first one that does not load. -/
theorem value_discoverFrom (env : Environment) (user : Option Path) (seen ps : List Path) :
    (discoverFrom env user seen ps).value =
      (reached env user seen ps).mapM fun place => load env place.1 place.2 := by
  induction ps generalizing seen with
  | nil => rfl
  | cons p ps ih =>
    have hload : ∀ (origin : String) (place : Path × Path) (seen₁ : List Path),
        (loadThen env origin place (discoverFrom env user seen₁ ps)).value =
          (place :: reached env user seen₁ ps).mapM fun place => load env place.1 place.2 := by
      intro origin place seen₁
      rw [value_loadThen, ih, List.mapM_cons]
      rfl
    rw [discoverFrom, reached, visit]
    rcases climb env user seen p.ancestors with ⟨_ | place, seen₁⟩
    · dsimp only
      rcases fallback env user seen₁ with ⟨_ | place, seen₂⟩
      · exact ih seen₂
      · exact hload "user configuration" place seen₂
    · exact hload "configuration" place seen₁

/-- A visit ends on the way up, or falls back to the user's own settings. -/
lemma visit_cases (env : Environment) (user : Option Path) (seen : List Path) (p : Path) :
    (∃ place seen', climb env user seen p.ancestors = (some place, seen') ∧
        visit env user seen p = (some place, seen')) ∨
      ∃ seen', climb env user seen p.ancestors = (none, seen') ∧
        visit env user seen p = fallback env user seen' := by
  rw [visit]
  rcases climb env user seen p.ancestors with ⟨_ | place, seen'⟩
  · exact .inr ⟨seen', rfl, rfl⟩
  · exact .inl ⟨place, seen', rfl, rfl⟩

/-- If the user's directory was searched, it is not searched again. -/
lemma fallback_of_seen {u : Path} {seen : List Path} (h : seen.any u.same = true) :
    fallback env (some u) seen = (none, seen) := by
  rw [fallback, if_pos h]

/-- If the user's directory was not searched, it is searched now. -/
lemma fallback_of_unseen {u : Path} {seen : List Path} (h : ¬ seen.any u.same = true) :
    fallback env (some u) seen = (placeIn? env u, u :: seen) := by
  rw [fallback, if_neg h, placeIn?]

/-- Where there are no settings for a path, none are found. -/
lemma visit_fst_eq_none {p : Path} (h : placeFor? env user p = none) (seen : List Path) :
    (visit env user seen p).1 = none := by
  obtain ⟨hnearest, hown⟩ := Option.or_eq_none_iff.mp h
  rcases visit_cases env user seen p with ⟨place, seen', hclimb, -⟩ | ⟨seen', -, hvisit⟩
  · have hsome := (climb_eq_some hclimb).1
    rw [hnearest] at hsome
    cases hsome
  · rw [hvisit]
    cases user with
    | none => rfl
    | some u =>
      by_cases hseen : seen'.any u.same = true
      · rw [fallback_of_seen hseen]
      · rw [fallback_of_unseen hseen]
        exact hown

/-! ### What the search has in mind -/

/-- The settings for the path are among those that were found. -/
def Settled (env : Environment) (user : Option Path) (found : List (Path × Path)) (p : Path) :
    Prop :=
  ∀ place, placeFor? env user p = some place → place ∈ found

/-- What the directories that were seen say of the settings that were found. -/
structure Memory (env : Environment) (user : Option Path) (seen : List Path)
    (found : List (Path × Path)) : Prop where
  plain : ∀ d ∈ seen, d.Plain
  /-- Nothing new is found from a directory that was seen. -/
  settled : ∀ d ∈ seen, Settled env user found d
  remembered : ∀ place ∈ found, place.1 ∈ seen
  distinct : found.Pairwise fun a b => a.1.same b.1 = false

/-- With more settings found, a path stays settled. -/
lemma Settled.mono {found found' : List (Path × Path)} {p : Path} (h : Settled env user found p)
    (hsub : found ⊆ found') : Settled env user found' p :=
  fun place hplace => hsub (h place hplace)

/-- From a directory on the way up the same is found as from the path. -/
lemma Settled.of_suffix {found : List (Path × Path)} {p d : Path} {rest : List Path}
    (h : Settled env user found p) (hsuffix : d :: rest <:+ p.ancestors)
    (hnearest : nearest? env user p.ancestors = nearest? env user (d :: rest)) :
    Settled env user found d := by
  intro place hplace
  rw [placeFor?_of_suffix hsuffix hnearest] at hplace
  exact h place hplace

/-- Among directories that are spelled plainly, one that is the same as a seen one was seen itself.
-/
lemma mem_of_any_same {d : Path} {seen : List Path} (hd : d.Plain)
    (hseen : ∀ e ∈ seen, e.Plain) (h : seen.any d.same = true) : d ∈ seen := by
  obtain ⟨e, he, hsame⟩ := List.any_eq_true.mp h
  rwa [hd.eq_of_same (hseen e he) hsame]

namespace Memory

variable {seen seen' : List Path} {found : List (Path × Path)} {p : Path}

/-- A search starts with nothing in mind. -/
lemma nil : Memory env user [] [] where
  plain := by simp
  settled := by simp
  remembered := by simp
  distinct := .nil

/-- Whatever is found in a directory that was not seen can be added. -/
lemma extend {o : Option (Path × Path)} (h : Memory env user seen found) (hsub : seen ⊆ seen')
    (hseen' : ∀ d ∈ seen', d.Plain ∧ Settled env user (found ++ o.toList) d)
    (ho : ∀ place ∈ o, seen.any place.1.same = false ∧ place.1 ∈ seen') :
    Memory env user seen' (found ++ o.toList) where
  plain d hd := (hseen' d hd).1
  settled d hd := (hseen' d hd).2
  remembered place hplace := by
    rcases List.mem_append.mp hplace with hplace | hplace
    · exact hsub (h.remembered place hplace)
    · exact (ho place (Option.mem_toList.mp hplace)).2
  distinct := by
    refine List.pairwise_append.mpr ⟨h.distinct, ?_, ?_⟩
    · cases o with
      | none => exact .nil
      | some place => exact List.pairwise_singleton _ place
    · intro a ha b hb
      have hunseen := (ho b (Option.mem_toList.mp hb)).1
      rw [Path.same_comm]
      exact List.any_eq_false.mp hunseen a.1 (h.remembered a ha) |> Bool.eq_false_iff.mpr

/-- Once the path is settled, so is every directory on the way up. -/
lemma of_mem_climb (h : Memory env user seen found) {r : Option (Path × Path)}
    (hclimb : climb env user seen p.ancestors = (r, seen')) {found' : List (Path × Path)}
    (hsub : found ⊆ found') (hp : Settled env user found' p) :
    ∀ d ∈ seen', d.Plain ∧ Settled env user found' d := by
  intro d hd
  rcases FoundSettings.of_mem_climb hclimb hd with hd | ⟨rest, hsuffix, hnearest⟩
  · exact ⟨h.plain d hd, (h.settled d hd).mono hsub⟩
  · exact ⟨(Path.ancestors_of_suffix hsuffix).1, hp.of_suffix hsuffix hnearest⟩

/-- A way up that finds nothing ends for good, or in a directory from which nothing new is found. -/
lemma of_climb_none (h : Memory env user seen found)
    (hclimb : climb env user seen p.ancestors = (none, seen')) :
    nearest? env user p.ancestors = none ∨ Settled env user found p := by
  rcases climb_eq_none (Path.pairwise_ancestors p) hclimb with
    hnone | ⟨d, rest, hsuffix, hseen, hnearest⟩
  · exact .inl hnone
  · have hd : d ∈ seen :=
      mem_of_any_same (Path.ancestors_of_suffix hsuffix).1 h.plain hseen
    refine .inr fun place hplace => h.settled d hd place ?_
    rw [placeFor?_of_suffix hsuffix hnearest, hplace]

/-- If the user's own directory was seen, nothing is left to take from it. -/
lemma of_seen_user {u : Path} (hu : u.Canonical) (h : Memory env (some u) seen found)
    (hclimb : climb env (some u) seen p.ancestors = (none, seen'))
    (hseen : seen'.any u.same = true) : Settled env (some u) found p := by
  rcases h.of_climb_none hclimb with hnone | hsettled
  · intro place hplace
    rw [placeFor?, hnone, Option.none_or, Option.bind_some] at hplace
    have hplain : ∀ d ∈ seen', d.Plain := by
      intro d hd
      rcases FoundSettings.of_mem_climb hclimb hd with hd | ⟨rest, hsuffix, -⟩
      · exact h.plain d hd
      · exact (Path.ancestors_of_suffix hsuffix).1
    rcases FoundSettings.of_mem_climb hclimb (mem_of_any_same hu.plain hplain hseen) with
      hmem | ⟨rest, hsuffix, hnearest⟩
    · exact h.settled u hmem place ((placeFor?_user hu).trans hplace)
    · -- the way up came through the user's directory, and would have found its settings
      rw [hnone, nearest?_cons_of_place hplace] at hnearest
      cases hnearest
  · exact hsettled

/-- A way up that found nothing, with the user's own settings behind it. -/
lemma of_fallback (huser : ∀ u ∈ user, u.Canonical) (h : Memory env user seen found)
    (hclimb : climb env user seen p.ancestors = (none, seen')) :
    Memory env user (fallback env user seen').2 (found ++ (fallback env user seen').1.toList) ∧
      Settled env user (found ++ (fallback env user seen').1.toList) p := by
  have hsub := subset_climb hclimb
  have hstay : Settled env user found p → Memory env user seen' (found ++ none.toList) ∧
      Settled env user (found ++ none.toList) p := by
    intro hp
    rw [Option.toList_none, List.append_nil]
    have hextend := h.extend (o := none) hsub
    rw [Option.toList_none, List.append_nil] at hextend
    exact ⟨hextend (h.of_mem_climb hclimb (List.Subset.refl _) hp) (by simp), hp⟩
  cases user with
  | none =>
    refine hstay ?_
    rcases h.of_climb_none hclimb with hnone | hsettled
    · intro place hplace
      rw [placeFor?, hnone] at hplace
      cases hplace
    · exact hsettled
  | some u =>
    have hu : u.Canonical := huser u rfl
    by_cases hseen : seen'.any u.same = true
    · rw [fallback_of_seen hseen]
      exact hstay (h.of_seen_user hu hclimb hseen)
    · rw [fallback_of_unseen hseen]
      have hp : Settled env (some u) (found ++ (placeIn? env u).toList) p := by
        rcases h.of_climb_none hclimb with hnone | hsettled
        · intro place hplace
          rw [placeFor?, hnone, Option.none_or, Option.bind_some] at hplace
          exact List.mem_append_right _ (Option.mem_toList.mpr hplace)
        · exact hsettled.mono (List.subset_append_left _ _)
      refine ⟨h.extend (List.Subset.trans hsub (List.subset_cons_self u seen')) ?_ ?_, hp⟩
      · intro d hd
        rcases List.mem_cons.mp hd with rfl | hd
        · refine ⟨hu.plain, fun place hplace => ?_⟩
          rw [placeFor?_user hu] at hplace
          exact List.mem_append_right _ (Option.mem_toList.mpr hplace)
        · exact h.of_mem_climb hclimb (List.subset_append_left _ _) hp d hd
      · intro place hplace
        rw [fst_of_placeIn? hplace]
        refine ⟨?_, List.mem_cons_self⟩
        rw [List.any_eq_true] at hseen
        rw [List.any_eq_false]
        exact fun d hd hsame => hseen ⟨d, hsub hd, hsame⟩

/-- **The visit of a path.**  It keeps the invariant, and the path is settled after it. -/
theorem step (huser : ∀ u ∈ user, u.Canonical) (h : Memory env user seen found) (p : Path) :
    Memory env user (visit env user seen p).2 (found ++ (visit env user seen p).1.toList) ∧
      Settled env user (found ++ (visit env user seen p).1.toList) p := by
  rcases visit_cases env user seen p with ⟨place, seen', hclimb, hvisit⟩ | ⟨seen', hclimb, hvisit⟩
  · obtain ⟨hnearest, hunseen, hmem⟩ := climb_eq_some hclimb
    rw [hvisit]
    have hp : Settled env user (found ++ [place]) p := by
      intro place' hplace'
      rw [placeFor?, hnearest, Option.some_or] at hplace'
      cases hplace'
      exact List.mem_append_right _ List.mem_cons_self
    have hseen' := h.of_mem_climb hclimb (List.subset_append_left found [place]) hp
    refine ⟨h.extend (subset_climb hclimb) hseen' ?_, hp⟩
    rintro _ ⟨⟩
    exact ⟨hunseen, hmem⟩
  · rw [hvisit]
    exact h.of_fallback huser hclimb

/-- **The visits of some paths.**  All that is found is in different directories, and every path is
settled in the end. -/
theorem run (huser : ∀ u ∈ user, u.Canonical) (h : Memory env user seen found) (ps : List Path) :
    ((found ++ reached env user seen ps).Pairwise fun a b => a.1.same b.1 = false) ∧
      ∀ p ∈ ps, Settled env user (found ++ reached env user seen ps) p := by
  induction ps generalizing seen found with
  | nil =>
    rw [reached, List.append_nil]
    exact ⟨h.distinct, by simp⟩
  | cons p ps ih =>
    obtain ⟨hnext, hp⟩ := h.step huser p
    obtain ⟨hdistinct, hps⟩ := ih hnext
    rw [reached, ← List.append_assoc]
    refine ⟨hdistinct, fun q hq => ?_⟩
    rcases List.mem_cons.mp hq with rfl | hq
    · exact hp.mono (List.subset_append_left _ _)
    · exact hps q hq

/-- As long as nothing was found, a visit finds exactly the settings for its path. -/
lemma visit_fst (huser : ∀ u ∈ user, u.Canonical) (h : Memory env user seen []) (p : Path) :
    (visit env user seen p).1 = placeFor? env user p := by
  cases hplace : placeFor? env user p with
  | none => exact visit_fst_eq_none hplace seen
  | some place =>
    have hmem := (h.step huser p).2 place hplace
    rw [List.nil_append] at hmem
    exact Option.mem_toList.mp hmem

/-- What is found first are the settings for the first path that has any. -/
theorem head?_reached (huser : ∀ u ∈ user, u.Canonical) (h : Memory env user seen [])
    (ps : List Path) :
    (reached env user seen ps).head? = ps.findSome? (placeFor? env user) := by
  induction ps generalizing seen with
  | nil => rfl
  | cons p ps ih =>
    have hvisit := h.visit_fst huser p
    have hnext := (h.step huser p).1
    rw [reached, List.findSome?_cons]
    rw [hvisit] at hnext ⊢
    cases hplace : placeFor? env user p with
    | some place => rfl
    | none =>
      rw [hplace] at hnext
      exact ih hnext

end Memory

/-! ### The settings that a search gives -/

/-- If every item of a list has a result, the list has a list of results. -/
lemma exists_mapM_eq_ok {ε α β : Type} {f : α → Except ε β} {l : List α}
    (h : ∀ a ∈ l, (f a).isOk = true) :
    ∃ bs, l.mapM f = .ok bs ∧ List.Forall₂ (fun a b => f a = .ok b) l bs := by
  induction l with
  | nil => exact ⟨[], rfl, .nil⟩
  | cons a l ih =>
    obtain ⟨b, hb⟩ : ∃ b, f a = .ok b := by
      have ha := h a List.mem_cons_self
      cases hfa : f a with
      | error e =>
        rw [hfa] at ha
        cases ha
      | ok b => exact ⟨b, rfl⟩
    obtain ⟨bs, hbs, hall⟩ := ih fun a' ha' => h a' (List.mem_cons_of_mem a ha')
    refine ⟨b :: bs, ?_, .cons hb hall⟩
    rw [List.mapM_cons, hb, hbs]
    rfl

/-- Settings keep the directory that they were found in. -/
lemma directory_of_load {d file : Path} {s : FoundSettings} (h : load env d file = .ok s) :
    s.directory = d := by
  unfold load at h
  cases hread : Settings.read env file with
  | error e =>
    rw [hread] at h
    cases h
  | ok settings =>
    rw [hread] at h
    cases h
    rfl

/-- The settings are what the files hold, file by file. -/
def LoadedFrom (env : Environment) : List (Path × Path) → List FoundSettings → Prop :=
  List.Forall₂ fun place s => load env place.1 place.2 = .ok s

namespace LoadedFrom

variable {places : List (Path × Path)} {found : List FoundSettings}

/-- Settings come from the directories of their places, in the same order. -/
lemma map_directory (h : LoadedFrom env places found) :
    found.map directory = places.map Prod.fst := by
  induction h with
  | nil => rfl
  | cons hload _ ih => rw [List.map_cons, List.map_cons, directory_of_load hload, ih]

/-- Each place gives settings. -/
lemma exists_mem (h : LoadedFrom env places found) {place : Path × Path} (hplace : place ∈ places) :
    ∃ s ∈ found, load env place.1 place.2 = .ok s := by
  induction h with
  | nil => cases hplace
  | @cons _ s _ found hload _ ih =>
    rcases List.mem_cons.mp hplace with rfl | hplace
    · exact ⟨s, List.mem_cons_self, hload⟩
    · obtain ⟨t, ht, hload⟩ := ih hplace
      exact ⟨t, List.mem_cons_of_mem s ht, hload⟩

/-- The first settings come from the first place. -/
lemma map_head? (h : LoadedFrom env places found) :
    found.head?.map Except.ok = places.head?.map fun place => load env place.1 place.2 := by
  cases h with
  | nil => rfl
  | cons hload _ => rw [List.head?_cons, List.head?_cons, Option.map_some, Option.map_some, hload]

end LoadedFrom

/-- The first settings are used. -/
lemma value_choose (found : List FoundSettings) : (choose found).value = found.head? := by
  cases found <;> rfl

/-- **Settings are found as if every path were searched on its own.**  If all settings files that
are reached can be read, and the user's directory is spelled canonically, then no directory is
listed twice, the settings for every path are listed, and those that are used are the settings for
the first path that has any. -/
theorem discoverFrom_finds_nearest (env : Environment) (user : Option Path)
    (huser : ∀ u ∈ user, u.Canonical) (paths : List Path)
    (hload : ∀ place ∈ reached env user [] (paths.map env.normalize),
      (load env place.1 place.2).isOk = true) :
    ∃ found, (discoverFrom env user [] (paths.map env.normalize)).value = .ok found ∧
      (found.Pairwise fun s t => s.directory.same t.directory = false) ∧
      (∀ p ∈ paths, ∀ place, placeFor? env user (env.normalize p) = some place →
        ∃ s ∈ found, load env place.1 place.2 = .ok s) ∧
      (choose found).value.map Except.ok =
        ((paths.map env.normalize).findSome? (placeFor? env user)).map fun place =>
          load env place.1 place.2 := by
  obtain ⟨found, hfound, hloaded⟩ : ∃ found, _ = _ ∧ LoadedFrom env _ found :=
    exists_mapM_eq_ok hload
  obtain ⟨hdistinct, hsettled⟩ := Memory.nil.run huser (paths.map env.normalize)
  rw [List.nil_append] at hdistinct
  refine ⟨found, (value_discoverFrom env user [] _).trans hfound, ?_, ?_, ?_⟩
  · rw [← List.pairwise_map (f := directory) (R := fun d e => d.same e = false),
      hloaded.map_directory, List.pairwise_map]
    exact hdistinct
  · intro p hp place hplace
    have hmem := hsettled (env.normalize p) (List.mem_map_of_mem hp) place hplace
    exact hloaded.exists_mem hmem
  · rw [value_choose, hloaded.map_head?, Memory.nil.head?_reached huser]

/-- Two projects with settings for all that is below them, a directory without settings, and a user
with settings of their own. -/
def projectsWorld : Environment where
  root := .directory
    [("project", .directory
      [("forof.toml", .file "[lint]\nexclude = [\"*.js\"]\n".toUTF8), ("a", .directory []),
        ("b", .directory [("deep", .directory [])])]),
      ("second", .directory [(".forof.toml", .file "[lint]\n".toUTF8)]),
      ("other", .directory []),
      ("home", .directory [(".config", .directory [("forof", .directory
        [(".forof.toml", .file "".toUTF8)])])])]
  directory := some ⟨"/project"⟩
  vars := [("HOME", "/home")]

/-- The directory of the user's settings in `projectsWorld`. -/
def projectsUser : Path := ⟨"/home/.config/forof"⟩

/-- Two paths below the project, one without settings above it, and the user's own directory. -/
def projectsPaths : List Path := [⟨"a"⟩, ⟨"b/deep"⟩, ⟨"../other"⟩, ⟨"/home//.config/forof/"⟩]

/-- The user's directory of the sample is spelled canonically. -/
lemma canonical_projectsUser : projectsUser.Canonical :=
  ⟨["home", ".config", "forof"], by decide, by decide⟩

/-- In `projectsWorld` the settings of the project and those of the user are found. -/
theorem discoverFrom_finds_nearest_projectsWorld :
    (∀ u ∈ some projectsUser, u.Canonical) ∧
    (∀ place ∈ reached projectsWorld projectsUser [] (projectsPaths.map projectsWorld.normalize),
      (load projectsWorld place.1 place.2).isOk = true) ∧
    ∃ found, (discoverFrom projectsWorld projectsUser []
        (projectsPaths.map projectsWorld.normalize)).value = .ok found ∧
      (found.Pairwise fun s t => s.directory.same t.directory = false) ∧
      (∀ p ∈ projectsPaths, ∀ place,
        placeFor? projectsWorld projectsUser (projectsWorld.normalize p) = some place →
          ∃ s ∈ found, load projectsWorld place.1 place.2 = .ok s) ∧
      (choose found).value.map Except.ok =
        ((projectsPaths.map projectsWorld.normalize).findSome?
          (placeFor? projectsWorld projectsUser)).map fun place =>
            load projectsWorld place.1 place.2 := by
  have huser : ∀ u ∈ some projectsUser, u.Canonical := by
    rintro _ ⟨⟩
    exact canonical_projectsUser
  have hload : ∀ place ∈
      reached projectsWorld projectsUser [] (projectsPaths.map projectsWorld.normalize),
      (load projectsWorld place.1 place.2).isOk = true := by
    decide +kernel
  exact ⟨huser, hload, discoverFrom_finds_nearest projectsWorld projectsUser huser _ hload⟩

/-- The directory of the user's settings lies on the way up from `/cfg/forof/sub`, but it is named
with a detour. -/
def detourWorld : Environment where
  root := .directory
    [("forof.toml", .file "".toUTF8), ("a", .directory []),
      ("cfg", .directory [("forof", .directory [("sub", .directory [])])])]
  directory := some ⟨"/"⟩
  vars := [("XDG_CONFIG_HOME", "/a/../cfg")]

/-- A search does not end at the user's directory if that is spelled with a `..`: it goes on to the
settings of the root, which a search up to the user's directory does not come to. -/
theorem discover_passes_user_directory :
    (discover detourWorld [⟨"/cfg/forof/sub"⟩]).value =
        .ok [⟨⟨"/"⟩, Settings.unset, some ⟨"/forof.toml"⟩⟩] ∧
      (userDirectory? detourWorld).map detourWorld.normalize = some ⟨"/cfg/forof"⟩ ∧
      placeFor? detourWorld (some ⟨"/cfg/forof"⟩) (detourWorld.normalize ⟨"/cfg/forof/sub"⟩) =
        none := by
  decide +kernel

end FoundSettings
end LoopLint
