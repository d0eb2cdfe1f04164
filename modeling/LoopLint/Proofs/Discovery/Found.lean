import LoopLint.Discovery.Files
import LoopLint.Proofs.Path.Canonical

/-!
# The paths of found files

In a file tree whose entries have proper names, every file that is found has a canonical path: the
walk starts at a normalized path, and each step down adds the name of an entry.  So two found paths
with the same components are spelled alike, however the given paths were.
-/

namespace LoopLint

/-! ### Trees with proper names -/

namespace Entry

mutual

/-- Every name in the tree can be the name of an entry. -/
def Named : Entry → Prop
  | file _ => True
  | link _ => True
  | directory es => NamedAll es

/-- Every name among some entries, and below them, can be the name of an entry. -/
def NamedAll : List (String × Entry) → Prop
  | [] => True
  | (name, e) :: es => Path.IsName name ∧ e.Named ∧ NamedAll es

end

mutual

/-- It can be decided whether the names of a tree are proper. -/
def decidableNamed : (e : Entry) → Decidable e.Named
  | file _ => isTrue (by simp [Named])
  | link _ => isTrue (by simp [Named])
  | directory es =>
    have := decidableNamedAll es
    decidable_of_iff (NamedAll es) (by simp [Named])

/-- It can be decided whether the names of some entries are proper. -/
def decidableNamedAll : (es : List (String × Entry)) → Decidable (NamedAll es)
  | [] => isTrue (by simp [NamedAll])
  | (name, e) :: es =>
    have := decidableNamed e
    have := decidableNamedAll es
    decidable_of_iff (Path.IsName name ∧ e.Named ∧ NamedAll es) (by simp [NamedAll])

end

instance (e : Entry) : Decidable e.Named := decidableNamed e

/-- What a name stands for has proper names if all entries do. -/
lemma NamedAll.of_lookup? {es : List (String × Entry)} (h : NamedAll es) {name : String}
    {e : Entry} (he : lookup? es name = some e) : e.Named := by
  induction es with
  | nil => cases he
  | cons x es ih =>
    obtain ⟨n, e'⟩ := x
    obtain ⟨-, he', hes⟩ := h
    rw [lookup?, List.find?_cons] at he
    split at he
    · obtain rfl : e' = e := by simpa using he
      exact he'
    · exact ih hes he

/-- What is reached in a tree with proper names has proper names. -/
lemma Named.of_at? {e : Entry} (h : e.Named) {names : List String} {e' : Entry}
    (he' : e.at? names = some e') : e'.Named := by
  induction names generalizing e with
  | nil =>
    obtain rfl : e = e' := by simpa [at?] using he'
    exact h
  | cons n names ih =>
    rw [at?, Option.bind_eq_some_iff] at he'
    obtain ⟨child, hchild, he'⟩ := he'
    refine ih ?_ he'
    cases e with
    | file content => cases hchild
    | link target => cases hchild
    | directory es => exact NamedAll.of_lookup? h hchild

end Entry

/-- What a path stands for has proper names if the whole tree does. -/
lemma Environment.named_of_find {env : Environment} (h : env.root.Named) {p : Path} {e : Entry}
    (he : env.find p = .ok e) : e.Named := by
  unfold find at he
  cases hnames : env.locate p with
  | error error =>
    rw [hnames] at he
    cases he
  | ok names =>
    simp only [hnames, bind, Except.bind] at he
    split at he
    · next e' hat =>
      obtain rfl : e' = e := by simpa using he
      exact h.of_at? hat
    · cases he

/-! ### The walk -/

namespace Visit

/-- The path of the visit, if it has one, is canonical. -/
def Canonical : Visit → Prop
  | entry p _ _ => p.Canonical
  | failure _ => True

mutual

/-- Below a canonical path all visits are to canonical paths. -/
theorem canonical_of_mem_below (env : Environment) (x : Exclusion) (scope : IgnoreScope) (p : Path)
    (given : Bool) : (e : Entry) → e.Named → p.Canonical →
      ∀ v ∈ below env x scope p given e, v.Canonical
  | .file _, _, hp, v, hv => by
    rw [below, List.mem_singleton] at hv
    rwa [hv]
  | .link _, _, hp, v, hv => by
    rw [below, List.mem_singleton] at hv
    rwa [hv]
  | .directory es, he, hp, v, hv => by
    rw [below, List.mem_cons] at hv
    rcases hv with rfl | hv
    · exact hp
    · exact canonical_of_mem_belowAll env x (scope.enter env p) p es he hp v hv

/-- Below a directory with a canonical path all visits are to canonical paths. -/
theorem canonical_of_mem_belowAll (env : Environment) (x : Exclusion) (scope : IgnoreScope)
    (directory : Path) : (es : List (String × Entry)) → Entry.NamedAll es → directory.Canonical →
      ∀ v ∈ belowAll env x scope directory es, v.Canonical
  | [], _, _, v, hv => by
    rw [belowAll] at hv
    cases hv
  | (name, e) :: es, hes, hp, v, hv => by
    obtain ⟨hname, he, hes⟩ := hes
    rw [belowAll, List.mem_append] at hv
    rcases hv with hv | hv
    · split at hv
      · cases hv
      · exact canonical_of_mem_below env x scope _ false e he (hp.join hname) v hv
    · exact canonical_of_mem_belowAll env x scope directory es hes hp v hv

end

/-- From a canonical start all visits are to canonical paths. -/
lemma canonical_of_mem_ofStart {env : Environment} (henv : env.root.Named) {x : Exclusion}
    {p : Path} (hp : p.Canonical) {v : Visit} (hv : v ∈ ofStart env x p) : v.Canonical := by
  rw [ofStart] at hv
  split at hv
  · rw [List.mem_singleton.mp hv]
    trivial
  · next es hfind =>
    have hes : (Entry.directory es).Named := Environment.named_of_find henv hfind
    generalize IgnoreScope.atStart env p = start at hv
    obtain ⟨scope, errors⟩ := start
    rcases List.mem_append.mp hv with hv | hv
    · split at hv
      · cases hv
      · rw [List.mem_singleton.mp hv]
        trivial
    · exact canonical_of_mem_below env x scope p true _ hes hp v hv
  · rw [List.mem_singleton.mp hv]
    exact hp

/-- A file that a visit gives has the path of the visit. -/
lemma Canonical.of_result? {v : Visit} (h : v.Canonical) {p : Path}
    (hp : v.result? = some (.ok p)) : p.Canonical := by
  cases v with
  | failure message => cases hp
  | entry q given isDirectory =>
    rw [result?] at hp
    split at hp
    · obtain rfl : q = p := by simpa using hp
      exact h
    · cases hp

end Visit

/-- The visits of a search. -/
def visits (env : Environment) (x : Exclusion) (paths : List Path) : List Visit :=
  paths.flatMap fun p => Visit.ofStart env x (env.normalize p)

/-- In a tree with proper names, a search from a known directory only visits canonical paths. -/
theorem canonical_of_mem_visits {env : Environment} (henv : env.root.Named) {d : Path}
    (hd : env.directory = some d) {x : Exclusion} {paths : List Path} {v : Visit}
    (hv : v ∈ visits env x paths) : v.Canonical := by
  obtain ⟨p, -, hv⟩ := List.mem_flatMap.mp hv
  refine Visit.canonical_of_mem_ofStart henv ?_ hv
  rw [Environment.normalize, hd]
  exact Path.canonical_normalize d p

/-- A search gives what its visits give. -/
lemma discoverFiles_value (env : Environment) (settings : Option FoundSettings) (noDefault : Bool)
    (paths : List Path) :
    (discoverFiles env settings noDefault paths).value =
      (visits env (Exclusion.ofSettings settings noDefault).value paths).filterMap
        Visit.result? := by
  cases paths with
  | nil => rfl
  | cons p paths => rfl

end LoopLint
