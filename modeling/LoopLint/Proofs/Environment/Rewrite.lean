import LoopLint.Environment.Basic
import Mathlib.Data.List.Basic
import Mathlib.Tactic.Common

/-!
# Writing to one file

`Environment.rewrite` puts other bytes into one file and leaves the rest of the world as it is.  The
way to a file depends on directories and links only, so every path leads where it led before
(`locate_rewrite`).  Hence a path that does not lead to the file reads what it read before
(`readText_rewrite_of_not_leadsTo`), whatever the new bytes are.
-/

namespace LoopLint

namespace Entry

/-- The entry without what is below it. -/
def outline : Entry → Entry
  | directory _ => directory []
  | e => e

/-- What the way through a file tree depends on: the entry without its bytes and without what is
below it. -/
def skeleton : Entry → Entry
  | file _ => file ByteArray.empty
  | directory _ => directory []
  | link target => link target

/-- The outline of an entry has the skeleton of the entry. -/
@[simp] lemma skeleton_outline (e : Entry) : e.outline.skeleton = e.skeleton := by
  cases e <;> rfl

/-! ### One entry is exchanged -/

/-- What a name stands for once one name was given a meaning. -/
lemma lookup?_update (name other : String) (e : Entry) (es : List (String × Entry)) :
    lookup? (update name e es) other = if other = name then some e else lookup? es other := by
  induction es with
  | nil =>
    by_cases h : other = name
    · simp [update, lookup?, h]
    · simp [update, lookup?, h, Ne.symm h]
  | cons x es ih =>
    rw [update]
    by_cases hx : x.1 = name
    · rw [if_pos hx]
      by_cases h : other = name
      · simp [lookup?, h]
      · have hne : name ≠ other := Ne.symm h
        simp [lookup?, h, hx, hne]
    · rw [if_neg hx]
      by_cases hother : x.1 = other
      · have hne : other ≠ name := fun h => hx (hother.trans h)
        simp [lookup?, hother, hne]
      · simpa [lookup?, hother] using ih

/-- A way along two rows of names leads along one and then the other. -/
lemma at?_append (e : Entry) (names more : List String) :
    e.at? (names ++ more) = (e.at? names).bind (·.at? more) := by
  induction names generalizing e with
  | nil => rfl
  | cons n names ih =>
    rw [List.cons_append, at?, at?, Option.bind_assoc]
    exact Option.bind_congr fun child _ => ih child

/-- One more name is looked up among the entries. -/
lemma at?_concat (e : Entry) (names : List String) (name : String) :
    e.at? (names ++ [name]) = (e.at? names).bind fun child => lookup? child.entries name := by
  rw [at?_append]
  refine Option.bind_congr fun child _ => ?_
  rw [at?]
  exact Option.bind_fun_some _

/-- Where a file stood, putting another one there changes that entry and no other. -/
lemma map_outline_at?_insert {e : Entry} {names : List String} {old : ByteArray}
    (h : e.at? names = some (file old)) (content : ByteArray) (other : List String) :
    ((e.insert names (file content)).at? other).map outline =
      if other = names then some (file content) else (e.at? other).map outline := by
  induction names generalizing e other with
  | nil =>
    obtain rfl : e = file old := Option.some.inj h
    cases other with
    | nil => rfl
    | cons m other => rfl
  | cons n names ih =>
    rw [at?, Option.bind_eq_some_iff] at h
    obtain ⟨child, hchild, hfile⟩ := h
    -- Only a directory has entries, so the way down starts in one.
    cases e with
    | file bytes => cases hchild
    | link target => cases hchild
    | directory es =>
      have hlookup : lookup? es n = some child := hchild
      rw [insert, entries, hlookup, Option.getD_some]
      cases other with
      | nil => rfl
      | cons m other =>
        rw [at?, entries, at?, entries, lookup?_update]
        by_cases hm : m = n
        · subst hm
          rw [if_pos rfl, hlookup, Option.bind_some, Option.bind_some, ih hfile]
          simp only [List.cons.injEq, true_and]
        · simp [hm]

/-- The ways through the tree do not see which bytes are in the file. -/
lemma map_skeleton_at?_insert {e : Entry} {names : List String} {old : ByteArray}
    (h : e.at? names = some (file old)) (content : ByteArray) (other : List String) :
    ((e.insert names (file content)).at? other).map skeleton = (e.at? other).map skeleton := by
  have houtline := congrArg (Option.map skeleton) (map_outline_at?_insert h content other)
  have hcomp : skeleton ∘ outline = skeleton := funext skeleton_outline
  rw [Option.map_map, hcomp] at houtline
  rw [houtline]
  by_cases hother : other = names
  · rw [if_pos hother, hother, h]
    rfl
  · rw [if_neg hother, Option.map_map, hcomp]

/-! ### Ways through trees with the same skeleton -/

section Skeleton

variable {root root' : Entry}

/-- Trees with the same skeletons everywhere have them at each name of a directory. -/
lemma map_skeleton_lookup? (hroot : ∀ names, (root'.at? names).map skeleton =
    (root.at? names).map skeleton) {names : List String} {es es' : List (String × Entry)}
    (hes : root.at? names = some (directory es)) (hes' : root'.at? names = some (directory es'))
    (name : String) : (lookup? es' name).map skeleton = (lookup? es name).map skeleton := by
  have hname := hroot (names ++ [name])
  rwa [at?_concat, at?_concat, hes, hes'] at hname

/-- Every way leads to the same place. -/
lemma take_congr (hroot : ∀ names, (root'.at? names).map skeleton = (root.at? names).map skeleton)
    (follow : List String → List String → Except FileError (List String))
    (here steps : List String) : root'.take follow here steps = root.take follow here steps := by
  induction steps generalizing here with
  | nil => rw [take, take]
  | cons s rest ih =>
    have hhere := hroot here.reverse
    rw [take, take]
    cases hdir : root.at? here.reverse with
    | none =>
      rw [hdir, Option.map_none, Option.map_eq_none_iff] at hhere
      rw [hhere]
    | some e =>
      rw [hdir, Option.map_some, Option.map_eq_some_iff] at hhere
      obtain ⟨e', hdir', hskeleton⟩ := hhere
      rw [hdir']
      cases e with
      | file bytes =>
        cases e' <;> cases hskeleton
        rfl
      | link target =>
        cases e' <;> cases hskeleton
        rfl
      | directory es =>
        cases e' with
        | file bytes => cases hskeleton
        | link target => cases hskeleton
        | directory es' =>
          have hlookup := map_skeleton_lookup? hroot hdir hdir' s
          simp only [ih]
          cases hs : lookup? es s with
          | none =>
            rw [hs, Option.map_none, Option.map_eq_none_iff] at hlookup
            rw [hlookup]
          | some child =>
            rw [hs, Option.map_some, Option.map_eq_some_iff] at hlookup
            obtain ⟨child', hs', hchild⟩ := hlookup
            rw [hs']
            cases child <;> cases child' <;> cases hchild <;> rfl

/-- A way leads to the same names in trees with the same skeletons. -/
lemma resolve_congr (hroot : ∀ names, (root'.at? names).map skeleton =
    (root.at? names).map skeleton) (links : Nat) (here steps : List String) :
    root'.resolve links here steps = root.resolve links here steps := by
  induction links generalizing here steps with
  | zero =>
    rw [resolve, resolve]
    exact take_congr hroot _ here steps
  | succ links ih =>
    have hfollow : root'.resolve links = root.resolve links :=
      funext fun here => funext fun steps => ih here steps
    rw [resolve, resolve, hfollow]
    exact take_congr hroot _ here steps

end Skeleton
end Entry

namespace Environment

/-- The environment after other bytes were written to the file that some names lead to. -/
def rewrite (env : Environment) (names : List String) (content : ByteArray) : Environment :=
  { env with root := env.root.insert names (.file content) }

/-- Whether a path leads to the entry with the given names, through links or not. -/
def leadsTo (env : Environment) (names : List String) (p : Path) : Bool :=
  match env.locate p with
  | .ok real => real == names
  | .error _ => false

section Rewrite

variable {env : Environment} {names : List String} {old : ByteArray}

/-- Every path leads where it led before. -/
lemma locate_rewrite (h : env.root.at? names = some (.file old)) (content : ByteArray) (p : Path) :
    (env.rewrite names content).locate p = env.locate p := by
  have hresolve := Entry.resolve_congr (Entry.map_skeleton_at?_insert h content) linkLimit
  unfold locate rewrite
  simp only [hresolve]

/-- What stands at a place other than that of the file is there as before. -/
lemma readBytes_rewrite_of_not_leadsTo (h : env.root.at? names = some (.file old))
    (content : ByteArray) {p : Path} (hp : env.leadsTo names p = false) :
    (env.rewrite names content).readBytes p = env.readBytes p := by
  unfold readBytes find
  rw [locate_rewrite h]
  cases hreal : env.locate p with
  | error e => rfl
  | ok real =>
    have hne : real ≠ names := by
      rw [leadsTo, hreal] at hp
      exact ne_of_beq_false hp
    have houtline := Entry.map_outline_at?_insert h content real
    rw [if_neg hne] at houtline
    simp only [bind, Except.bind, rewrite]
    cases hat : env.root.at? real with
    | none =>
      rw [hat, Option.map_none, Option.map_eq_none_iff] at houtline
      rw [houtline]
    | some e =>
      rw [hat, Option.map_some, Option.map_eq_some_iff] at houtline
      obtain ⟨e', hat', heq⟩ := houtline
      rw [hat']
      cases e <;> cases e' <;> cases heq <;> rfl

/-- A path that does not lead to the file reads what it read before. -/
theorem readText_rewrite_of_not_leadsTo (h : env.root.at? names = some (.file old))
    (content : ByteArray) {p : Path} (hp : env.leadsTo names p = false) :
    (env.rewrite names content).readText p = env.readText p := by
  unfold readText
  rw [readBytes_rewrite_of_not_leadsTo h content hp]

/-- A path that leads to the file reads the new bytes. -/
theorem readBytes_rewrite_of_leadsTo (h : env.root.at? names = some (.file old))
    (content : ByteArray) {p : Path} (hp : env.leadsTo names p = true) :
    (env.rewrite names content).readBytes p = .ok content := by
  have hreal : env.locate p = .ok names := by
    unfold leadsTo at hp
    cases hlocate : env.locate p with
    | error e => simp [hlocate] at hp
    | ok real =>
      rw [hlocate] at hp
      rw [eq_of_beq hp]
  have houtline := Entry.map_outline_at?_insert h content names
  rw [if_pos rfl, Option.map_eq_some_iff] at houtline
  obtain ⟨e, hat, heq⟩ := houtline
  have hfile : e = .file content := by
    cases e with
    | file bytes => exact heq
    | link target => cases heq
    | directory es => cases heq
  unfold readBytes find
  rw [locate_rewrite h, hreal]
  simp only [bind, Except.bind, rewrite]
  rw [hat, hfile]

end Rewrite
end Environment
end LoopLint
