import LoopLint.Proofs.Discovery.Nearest

/-!
# When the user's own settings are read

The user's own settings are meant for paths without settings above them.  A path asks for them if
the way up from it finds nothing, or ends in the user's own directory (`AsksForUser`).

They are read in one more case.  A way up that ends at a directory seen before finds nothing
either, so the second of two paths with the same settings falls back to the user's own ones
(`SameSettings`).  These are all the cases: as long as no path asks for the user's settings and no
two paths have the same, every way up leaves its own trail, `reached` is the list of the nearest
settings (`reached_eq_filterMap`), and what is in the user's directory does not matter.
-/

namespace LoopLint
namespace FoundSettings

/-- There are no settings above the path, or the nearest ones are in the user's own directory. -/
def AsksForUser (env : Environment) (u p : Path) : Prop :=
  ∀ place, nearest? env (some u) p.ancestors = some place → place.1.same u = true

/-- The nearest settings above two paths are in the same file. -/
def SameSettings (env : Environment) (u p q : Path) : Prop :=
  ∃ place, nearest? env (some u) p.ancestors = some place ∧
    nearest? env (some u) q.ancestors = some place

/-- Some path asks for the user's settings, or two paths have the same settings. -/
def CallForUser (env : Environment) (u : Path) (ps : List Path) : Prop :=
  (∃ p ∈ ps, AsksForUser env u p) ∨ ¬ ps.Pairwise fun p q => ¬ SameSettings env u p q

instance (env : Environment) (u p : Path) : Decidable (AsksForUser env u p) :=
  decidable_of_iff ((nearest? env (some u) p.ancestors).all (fun place => place.1.same u) = true)
    (Option.all_eq_true _ _)

instance (env : Environment) (u p q : Path) : Decidable (SameSettings env u p q) :=
  decidable_of_iff (∃ place ∈ nearest? env (some u) p.ancestors,
    nearest? env (some u) q.ancestors = some place) Iff.rfl

instance (env : Environment) (u : Path) (ps : List Path) : Decidable (CallForUser env u ps) :=
  inferInstanceAs (Decidable (_ ∨ _))

variable {env : Environment} {u : Path}

/-- The nearest settings are in a directory of the row. -/
lemma of_nearest? {user : Option Path} {ds : List Path} {place : Path × Path}
    (h : nearest? env user ds = some place) :
    place.1 ∈ ds ∧ placeIn? env place.1 = some place := by
  induction ds with
  | nil => cases h
  | cons d ds ih =>
    cases hplace : placeIn? env d with
    | some place' =>
      rw [nearest?_cons_of_place hplace] at h
      cases h
      rw [fst_of_placeIn? hplace]
      exact ⟨List.mem_cons_self, hplace⟩
    | none =>
      by_cases huser : user.any d.same = true
      · rw [nearest?_cons_user hplace huser] at h
        cases h
      · rw [nearest?_cons hplace huser] at h
        obtain ⟨hmem, hin⟩ := ih h
        exact ⟨List.mem_cons_of_mem d hmem, hin⟩

/-- Settings that are not the user's own, from a path that does not ask for these. -/
lemma exists_nearest? {p : Path} (h : ¬ AsksForUser env u p) :
    ∃ place, nearest? env (some u) p.ancestors = some place ∧ place.1.same u = false := by
  unfold AsksForUser at h
  push Not at h
  obtain ⟨place, hnearest, hsame⟩ := h
  exact ⟨place, hnearest, Bool.eq_false_iff.mpr hsame⟩

/-! ### Ways up that do not meet -/

/-- From every directory that was seen, the settings of an earlier path are the nearest. -/
def Trail (env : Environment) (u : Path) (earlier seen : List Path) : Prop :=
  ∀ d ∈ seen, d.Plain ∧ ∃ q ∈ earlier,
    nearest? env (some u) q.ancestors = nearest? env (some u) d.ancestors

namespace Trail

variable {earlier seen seen' : List Path} {p : Path}

/-- A search starts without a trail. -/
lemma nil : Trail env u [] [] := by
  intro d hd
  cases hd

/-- A way up leaves a trail of directories from which the settings of a path are found. -/
lemma step (h : Trail env u earlier seen) {r : Option (Path × Path)}
    (hclimb : climb env (some u) seen p.ancestors = (r, seen')) :
    Trail env u (p :: earlier) seen' := by
  intro d hd
  rcases of_mem_climb hclimb hd with hd | ⟨rest, hsuffix, hnearest⟩
  · obtain ⟨hplain, q, hq, hnearest⟩ := h d hd
    exact ⟨hplain, q, List.mem_cons_of_mem p hq, hnearest⟩
  · obtain ⟨hplain, hancestors⟩ := Path.ancestors_of_suffix hsuffix
    refine ⟨hplain, p, List.mem_cons_self, ?_⟩
    rw [hnearest, hancestors]

/-- A way up that ends early shares its settings with an earlier path. -/
lemma exists_sameSettings (h : Trail env u earlier seen) {place : Path × Path}
    (hplace : nearest? env (some u) p.ancestors = some place)
    (hclimb : climb env (some u) seen p.ancestors = (none, seen')) :
    ∃ q ∈ earlier, SameSettings env u q p := by
  rcases climb_eq_none (Path.pairwise_ancestors p) hclimb with
    hnone | ⟨d, rest, hsuffix, hseen, hnearest⟩
  · rw [hnone] at hplace
    cases hplace
  · obtain ⟨hplain, hancestors⟩ := Path.ancestors_of_suffix hsuffix
    have hd : d ∈ seen := mem_of_any_same hplain (fun e he => (h e he).1) hseen
    obtain ⟨-, q, hq, heq⟩ := h d hd
    refine ⟨q, hq, place, ?_, hplace⟩
    rw [heq, hancestors, ← hnearest, hplace]

/-- **Ways that do not meet.**  If every path has settings above it that no other path has, a search
comes to exactly these, path by path. -/
theorem reached_eq_filterMap {ps : List Path} (h : Trail env u earlier seen)
    (hps : ∀ p ∈ ps, nearest? env (some u) p.ancestors ≠ none)
    (hfresh : ∀ q ∈ earlier, ∀ p ∈ ps, ¬ SameSettings env u q p)
    (hpairwise : ps.Pairwise fun p q => ¬ SameSettings env u p q) :
    reached env (some u) seen ps = ps.filterMap fun p => nearest? env (some u) p.ancestors := by
  induction ps generalizing earlier seen with
  | nil => rfl
  | cons p ps ih =>
    obtain ⟨place, hplace⟩ := Option.ne_none_iff_exists'.mp (hps p List.mem_cons_self)
    obtain ⟨hp, hpairwise⟩ := List.pairwise_cons.mp hpairwise
    rcases visit_cases env (some u) seen p with ⟨place', seen', hclimb, hvisit⟩ | ⟨seen', hclimb, -⟩
    · have hplace' := (climb_eq_some hclimb).1
      have hps' : ∀ q ∈ ps, nearest? env (some u) q.ancestors ≠ none :=
        fun q hq => hps q (List.mem_cons_of_mem p hq)
      have hfresh' : ∀ q ∈ p :: earlier, ∀ p' ∈ ps, ¬ SameSettings env u q p' := by
        intro q hq p' hp'
        rcases List.mem_cons.mp hq with rfl | hq
        · exact hp p' hp'
        · exact hfresh q hq p' (List.mem_cons_of_mem p hp')
      have hrest := ih (h.step hclimb) hps' hfresh' hpairwise
      rw [reached, hvisit, hrest, List.filterMap_cons, hplace']
      rfl
    · -- a fallback would mean that an earlier path has the same settings
      obtain ⟨q, hq, hsame⟩ := h.exists_sameSettings hplace hclimb
      exact absurd hsame (hfresh q hq p List.mem_cons_self)

end Trail

/-- If nothing calls for the user's settings, the nearest settings of each path are reached. -/
lemma reached_of_not_callForUser {ps : List Path} (h : ¬ CallForUser env u ps) :
    reached env (some u) [] ps = ps.filterMap fun p => nearest? env (some u) p.ancestors := by
  obtain ⟨hasks, hpairwise⟩ := not_or.mp h
  refine Trail.nil.reached_eq_filterMap ?_ (by simp) (not_not.mp hpairwise)
  intro p hp hnone
  refine hasks ⟨p, hp, ?_⟩
  intro place hplace
  rw [hnone] at hplace
  cases hplace

/-- The user's own settings are reached only if they are called for. -/
lemma callForUser_of_reached {ps : List Path} {place : Path × Path}
    (hplace : place ∈ reached env (some u) [] ps) (hsame : place.1.same u = true) :
    CallForUser env u ps := by
  by_contra h
  rw [reached_of_not_callForUser h, List.mem_filterMap] at hplace
  obtain ⟨p, hp, hnearest⟩ := hplace
  refine h (.inl ⟨p, hp, ?_⟩)
  intro place' hplace'
  rw [hnearest] at hplace'
  cases hplace'
  exact hsame

/-! ### The user's settings are read when they are called for -/

namespace Memory

variable {seen : List Path} {found : List (Path × Path)} {own : Path × Path}

/-- What holds of the user's directory holds of the one that is given. -/
lemma forall_mem_some (hu : u.Canonical) : ∀ v ∈ some u, v.Canonical := by
  rintro _ ⟨⟩
  exact hu

/-- If the user's directory was seen, the user's settings were found. -/
lemma own_mem (hu : u.Canonical) (hown : placeIn? env u = some own)
    (h : Memory env (some u) seen found) (hseen : u ∈ seen) : own ∈ found :=
  h.settled u hseen own ((placeFor?_user hu).trans hown)

/-- After a visit that falls back the user's own directory was seen. -/
lemma user_mem (hu : u.Canonical) {p : Path} {seen' : List Path}
    (h : Memory env (some u) seen found)
    (hvisit : visit env (some u) seen p = fallback env (some u) seen') :
    u ∈ (visit env (some u) seen p).2 := by
  have hplain := (h.step (forall_mem_some hu) p).1.plain
  rw [hvisit] at hplain ⊢
  by_cases hseen : seen'.any u.same = true
  · rw [fallback_of_seen hseen] at hplain ⊢
    exact mem_of_any_same hu.plain hplain hseen
  · rw [fallback_of_unseen hseen]
    exact List.mem_cons_self

/-- A path whose settings were found before falls back to the user's own. -/
lemma own_mem_of_found (hu : u.Canonical) (hown : placeIn? env u = some own)
    (h : Memory env (some u) seen found) {place : Path × Path} (hplace : place ∈ found)
    {ps : List Path} {p : Path} (hp : p ∈ ps)
    (hnearest : nearest? env (some u) p.ancestors = some place) :
    own ∈ found ++ reached env (some u) seen ps := by
  induction ps generalizing seen found with
  | nil => cases hp
  | cons q ps ih =>
    have hnext := (h.step (forall_mem_some hu) q).1
    rw [reached, ← List.append_assoc]
    rcases List.mem_cons.mp hp with rfl | hp
    · refine List.mem_append_left _ (hnext.own_mem hu hown ?_)
      rcases visit_cases env (some u) seen p with ⟨place', seen', hclimb, -⟩ | ⟨seen', -, hvisit⟩
      · -- the directory of these settings was seen, so they are not found again
        obtain ⟨hplace', hunseen, -⟩ := climb_eq_some hclimb
        rw [hnearest] at hplace'
        cases hplace'
        have hsame := List.any_eq_false.mp hunseen place.1 (h.remembered place hplace)
        exact absurd (Path.same_self place.1) hsame
      · exact h.user_mem hu hvisit
    · exact ih hnext (List.mem_append_left _ hplace) hp

/-- The second of two paths with the same settings falls back to the user's own. -/
lemma own_mem_of_not_pairwise (hu : u.Canonical) (hown : placeIn? env u = some own)
    (h : Memory env (some u) seen found) {ps : List Path}
    (hps : ¬ ps.Pairwise fun p q => ¬ SameSettings env u p q) :
    own ∈ found ++ reached env (some u) seen ps := by
  induction ps generalizing seen found with
  | nil => exact absurd .nil hps
  | cons p ps ih =>
    obtain ⟨hnext, hp⟩ := h.step (forall_mem_some hu) p
    rw [reached, ← List.append_assoc]
    by_cases hrest : ps.Pairwise fun p q => ¬ SameSettings env u p q
    · rw [List.pairwise_cons, not_and] at hps
      have hexists : ¬ ∀ q ∈ ps, ¬ SameSettings env u p q := fun hall => hps hall hrest
      push Not at hexists
      obtain ⟨q, hq, place, hplace, hplace'⟩ := hexists
      have hsettled : place ∈ found ++ (visit env (some u) seen p).1.toList := by
        refine hp place ?_
        rw [placeFor?, hplace, Option.some_or]
      exact hnext.own_mem_of_found hu hown hsettled hq hplace'
    · exact ih hnext hrest

/-- A path that asks for the user's settings gets them. -/
lemma own_mem_of_asks (hu : u.Canonical) (hown : placeIn? env u = some own) {ps : List Path}
    {p : Path} (hp : p ∈ ps) (hasks : AsksForUser env u p) : own ∈ reached env (some u) [] ps := by
  obtain ⟨-, hsettled⟩ := (nil : Memory env (some u) [] []).run (forall_mem_some hu) ps
  refine hsettled p hp own ?_
  cases hnearest : nearest? env (some u) p.ancestors with
  | none => rw [placeFor?, hnearest, Option.none_or, Option.bind_some, hown]
  | some place =>
    obtain ⟨hmem, hin⟩ := of_nearest? hnearest
    have heq : place.1 = u :=
      (Path.plain_of_mem_ancestors hmem).eq_of_same hu.plain (hasks place hnearest)
    rw [heq, hown] at hin
    rw [placeFor?, hnearest, Option.some_or, hin]

end Memory

/-- If the user's own settings are called for, they are reached. -/
lemma reached_of_callForUser (hu : u.Canonical) {own : Path × Path}
    (hown : placeIn? env u = some own) {ps : List Path} (h : CallForUser env u ps) :
    own ∈ reached env (some u) [] ps := by
  rcases h with ⟨p, hp, hasks⟩ | hpairwise
  · exact Memory.own_mem_of_asks hu hown hp hasks
  · exact Memory.nil.own_mem_of_not_pairwise hu hown hpairwise

/-! ### What is in the user's directory -/

/-- Two worlds whose settings above some paths are the same, but for the user's own directory. -/
structure AgreeBeside (u : Path) (ps : List Path) (env env' : Environment) : Prop where
  directory : env'.directory = env.directory
  place : ∀ p ∈ ps, ∀ d ∈ p.ancestors, d.same u = false → placeIn? env' d = placeIn? env d
  load : ∀ p ∈ ps, ∀ d ∈ p.ancestors, d.same u = false → ∀ found ∈ placeIn? env d,
    load env' found.1 found.2 = load env found.1 found.2

/-- Settings that are nearer than the user's directory do not depend on it. -/
lemma nearest?_congr {env' : Environment} {ds : List Path}
    (h : ∀ d ∈ ds, d.same u = false → placeIn? env' d = placeIn? env d) {place : Path × Path}
    (hplace : nearest? env (some u) ds = some place) (hu : place.1.same u = false) :
    nearest? env' (some u) ds = some place := by
  induction ds with
  | nil => cases hplace
  | cons d ds ih =>
    have hd := h d List.mem_cons_self
    cases hin : placeIn? env d with
    | some place' =>
      rw [nearest?_cons_of_place hin] at hplace
      cases hplace
      rw [fst_of_placeIn? hin] at hu
      exact nearest?_cons_of_place ((hd hu).trans hin) ds
    | none =>
      by_cases huser : (some u).any d.same = true
      · rw [nearest?_cons_user hin huser] at hplace
        cases hplace
      · have hne : d.same u = false := Bool.eq_false_iff.mpr huser
        rw [nearest?_cons hin huser] at hplace
        rw [nearest?_cons ((hd hne).trans hin) huser]
        exact ih (fun e he => h e (List.mem_cons_of_mem d he)) hplace

/-- A path that does not ask for the user's settings has the same nearest settings in both worlds.
-/
lemma AgreeBeside.nearest?_eq {ps : List Path} {env' : Environment}
    (h : AgreeBeside u ps env env') {p : Path} (hp : p ∈ ps) (hasks : ¬ AsksForUser env u p) :
    nearest? env' (some u) p.ancestors = nearest? env (some u) p.ancestors := by
  obtain ⟨place, hplace, hu⟩ := exists_nearest? hasks
  rw [hplace]
  exact nearest?_congr (h.place p hp) hplace hu

/-- If nothing calls for the user's settings in one world, nothing does in the other. -/
lemma AgreeBeside.not_callForUser {ps : List Path} {env' : Environment}
    (h : AgreeBeside u ps env env') (hcall : ¬ CallForUser env u ps) :
    ¬ CallForUser env' u ps := by
  obtain ⟨hasks, hpairwise⟩ := not_or.mp hcall
  have hnearest : ∀ p ∈ ps, nearest? env' (some u) p.ancestors =
      nearest? env (some u) p.ancestors :=
    fun p hp => h.nearest?_eq hp fun hp' => hasks ⟨p, hp, hp'⟩
  refine not_or.mpr ⟨?_, not_not.mpr ?_⟩
  · rintro ⟨p, hp, hp'⟩
    refine hasks ⟨p, hp, ?_⟩
    intro place hplace
    exact hp' place ((hnearest p hp).trans hplace)
  · refine (not_not.mp hpairwise).imp_of_mem ?_
    rintro p q hp hq hne ⟨place, hplace, hplace'⟩
    exact hne ⟨place, (hnearest p hp).symm.trans hplace, (hnearest q hq).symm.trans hplace'⟩

/-- Reading a row depends only on how its items are read. -/
lemma mapM_congr {ε α β : Type} {f g : α → Except ε β} {l : List α} (h : ∀ a ∈ l, f a = g a) :
    l.mapM f = l.mapM g := by
  induction l with
  | nil => rfl
  | cons a l ih =>
    have hl := ih fun a' ha' => h a' (List.mem_cons_of_mem a ha')
    rw [List.mapM_cons, List.mapM_cons, h a List.mem_cons_self, hl]

/-- A search that does not call for the user's settings does not depend on them. -/
lemma AgreeBeside.value_discoverFrom_eq {ps : List Path} {env' : Environment}
    (h : AgreeBeside u ps env env') (hcall : ¬ CallForUser env u ps) :
    (discoverFrom env' (some u) [] ps).value = (discoverFrom env (some u) [] ps).value := by
  obtain ⟨hasks, -⟩ := not_or.mp hcall
  have hasks : ∀ p ∈ ps, ¬ AsksForUser env u p := fun p hp hp' => hasks ⟨p, hp, hp'⟩
  have hnearest : (ps.filterMap fun p => nearest? env' (some u) p.ancestors) =
      ps.filterMap fun p => nearest? env (some u) p.ancestors :=
    List.filterMap_congr fun p hp => h.nearest?_eq hp (hasks p hp)
  rw [value_discoverFrom, value_discoverFrom, reached_of_not_callForUser hcall,
    reached_of_not_callForUser (h.not_callForUser hcall), hnearest]
  refine mapM_congr fun place hplace => ?_
  obtain ⟨p, hp, hplace⟩ := List.mem_filterMap.mp hplace
  obtain ⟨hmem, hin⟩ := of_nearest? hplace
  obtain ⟨place', hplace', hu⟩ := exists_nearest? (hasks p hp)
  obtain rfl : place = place' := Option.some.inj (hplace.symm.trans hplace')
  exact h.load p hp place.1 hmem hu place hin

/-- **The user's own settings are a fallback.**  A search loads what it comes to, one file after the
other.  It comes to the user's own settings only if a path asks for them or two paths have the same
settings, and in these cases it does if the user has any and their directory is spelled canonically.
In all other cases the outcome does not depend on what is in the user's directory. -/
theorem user_settings_are_fallback (env : Environment) (u : Path) (paths : List Path) :
    (discoverFrom env (some u) [] (paths.map env.normalize)).value =
        ((reached env (some u) [] (paths.map env.normalize)).mapM fun place =>
          load env place.1 place.2) ∧
      ((∃ place ∈ reached env (some u) [] (paths.map env.normalize), place.1.same u = true) →
        CallForUser env u (paths.map env.normalize)) ∧
      (u.Canonical → CallForUser env u (paths.map env.normalize) →
        ∀ own, placeIn? env u = some own →
          own ∈ reached env (some u) [] (paths.map env.normalize)) ∧
      (¬ CallForUser env u (paths.map env.normalize) →
        ∀ env', AgreeBeside u (paths.map env.normalize) env env' →
          (discoverFrom env' (some u) [] (paths.map env'.normalize)).value =
            (discoverFrom env (some u) [] (paths.map env.normalize)).value) := by
  refine ⟨value_discoverFrom env (some u) [] _, ?_, ?_, ?_⟩
  · rintro ⟨place, hplace, hsame⟩
    exact callForUser_of_reached hplace hsame
  · intro hu hcall own hown
    exact reached_of_callForUser hu hown hcall
  · intro hcall env' hagree
    have hnormalize : env'.normalize = env.normalize := by
      unfold Environment.normalize
      rw [hagree.directory]
    rw [hnormalize]
    exact hagree.value_discoverFrom_eq hcall

/-- `projectsWorld` with settings of the user that cannot be read. -/
def brokenWorld : Environment :=
  projectsWorld.place ⟨"/home/.config/forof/forof.toml"⟩ (.file "[lint\n".toUTF8)

/-- Two paths below different projects: it does not matter that the user's settings are broken. -/
theorem user_settings_are_fallback_projectsWorld :
    ¬ CallForUser projectsWorld projectsUser
        ([⟨"a"⟩, ⟨"/second"⟩].map projectsWorld.normalize) ∧
      AgreeBeside projectsUser ([⟨"a"⟩, ⟨"/second"⟩].map projectsWorld.normalize) projectsWorld
        brokenWorld ∧
      (discoverFrom brokenWorld (some projectsUser) []
          ([⟨"a"⟩, ⟨"/second"⟩].map brokenWorld.normalize)).value =
        (discoverFrom projectsWorld (some projectsUser) []
          ([⟨"a"⟩, ⟨"/second"⟩].map projectsWorld.normalize)).value := by
  have hcall : ¬ CallForUser projectsWorld projectsUser
      ([⟨"a"⟩, ⟨"/second"⟩].map projectsWorld.normalize) := by
    decide +kernel
  have hagree : AgreeBeside projectsUser ([⟨"a"⟩, ⟨"/second"⟩].map projectsWorld.normalize)
      projectsWorld brokenWorld :=
    ⟨rfl, by decide +kernel, by decide +kernel⟩
  exact ⟨hcall, hagree, (user_settings_are_fallback projectsWorld projectsUser
    [⟨"a"⟩, ⟨"/second"⟩]).2.2.2 hcall brokenWorld hagree⟩

/-- Two paths below one project: neither asks for the user's settings, and yet a search fails on
them. -/
theorem discover_fails_on_user_settings :
    userDirectory? brokenWorld = some projectsUser ∧
      (∀ p ∈ [⟨"a"⟩, ⟨"b/deep"⟩],
        ¬ AsksForUser brokenWorld projectsUser (brokenWorld.normalize p)) ∧
      (discover brokenWorld [⟨"a"⟩, ⟨"b/deep"⟩]).value =
        .error (.invalid ⟨"/home/.config/forof/forof.toml"⟩ none) := by
  decide +kernel

end FoundSettings
end LoopLint
