import LoopLint.Proofs.Path.Shortening

/-!
# Straight ways

Normalizing a path looks nothing up: a `..` takes back the name before it.  The file tree agrees as
long as no link is followed on the way (`Entry.take_eq_ok`), so that a file which a path leads to
without links is also what the normalized path leads to.  Behind a link a `..` leads to another
directory, and there is no such rule.
-/

namespace LoopLint

namespace Entry

/-- Steps that lead somewhere without a link lead where their names say.  The names of the way are
those of the start, or short ones. -/
lemma take_eq_ok {root : Entry} {here segments names : List String}
    (h : root.take (fun _ _ => .error .tooManyLinks) here segments = .ok names) :
    names = (segments.filterMap Path.component?).foldl Path.step here ∧
      ∀ n ∈ names, n ∈ here ∨ n.utf8ByteSize ≤ 255 := by
  induction segments generalizing here with
  | nil =>
    obtain rfl : here = names := Except.ok.inj h
    exact ⟨rfl, fun n hn => .inl hn⟩
  | cons s rest ih =>
    rw [take] at h
    split at h
    · next es hdirectory =>
      by_cases hstay : s = "" ∨ s = "."
      · rw [if_pos hstay] at h
        rw [List.filterMap_cons_none (by rw [Path.component?, if_pos hstay])]
        exact ih h
      · rw [if_neg hstay] at h
        by_cases hup : s = ".."
        · have hcomponent : Path.component? s = some .up := by
            rw [Path.component?, if_neg hstay, if_pos hup]
          rw [if_pos hup] at h
          rw [List.filterMap_cons_some hcomponent, List.foldl_cons]
          obtain ⟨hnames, hshort⟩ := ih h
          exact ⟨hnames, fun n hn => (hshort n hn).imp_left List.mem_of_mem_tail⟩
        · have hcomponent : Path.component? s = some (.name s) := by
            rw [Path.component?, if_neg hstay, if_neg hup]
          rw [if_neg hup] at h
          rw [List.filterMap_cons_some hcomponent, List.foldl_cons]
          by_cases hlong : 255 < s.utf8ByteSize
          · rw [if_pos hlong] at h
            cases h
          · rw [if_neg hlong] at h
            split at h
            · cases h
            · cases h
            · obtain ⟨hnames, hshort⟩ := ih h
              refine ⟨hnames, fun n hn => ?_⟩
              rcases hshort n hn with hn | hn
              · rcases List.mem_cons.mp hn with rfl | hn
                · exact .inr (Nat.not_lt.mp hlong)
                · exact .inl hn
              · exact .inr hn
    · cases h
    · cases h

/-- Short names that lead to a file are the way to it. -/
lemma resolve_names_of_file {root : Entry} {names : List String} {content : ByteArray}
    (hroot : root.isDirectory = true) (hfile : root.at? names = some (.file content))
    (hnames : ∀ n ∈ names, Path.IsName n ∧ n.utf8ByteSize ≤ 255) (links : Nat) :
    root.resolve links [] names = .ok names.reverse := by
  rcases List.eq_nil_or_concat names with rfl | ⟨init, n, rfl⟩
  · rw [at?, Option.some.injEq] at hfile
    subst hfile
    cases hroot
  · have hsplit := hfile
    rw [List.concat_eq_append, at?_append, Option.bind_eq_some_iff] at hsplit
    obtain ⟨parent, hparent, hbelow⟩ := hsplit
    obtain ⟨es, child, rfl, hchild, hat⟩ := exists_of_at?_cons hbelow
    obtain rfl : child = .file content := by simpa [at?] using hat
    rw [List.concat_eq_append] at hnames ⊢
    obtain ⟨⟨hempty, hdot, hdots, -⟩, hshort⟩ :=
      hnames n (List.mem_append_right init List.mem_cons_self)
    have hstep : ∀ follow, root.take follow init.reverse [n] = .ok (n :: init.reverse) := by
      intro follow
      rw [take, List.reverse_reverse, hparent]
      simp only [hempty, hdot, or_self, if_false, hdots, Nat.not_lt.mpr hshort, hchild]
      rfl
    rw [resolve_names_append hparent fun m hm => hnames m (List.mem_append_left _ hm),
      List.reverse_append, List.reverse_singleton, List.singleton_append]
    cases links with
    | zero => rw [resolve, hstep]
    | succ links => rw [resolve, hstep]

end Entry

namespace Environment

/-- The path leads somewhere from the directory `d`, and it leads there also if no link may be
followed. -/
def LeadsStraight (env : Environment) (d p : Path) : Prop :=
  ∃ names, env.locate p = .ok names ∧
    env.root.resolve 0 (if p.isAbsolute then [] else (Path.walk d.components).reverse) p.segments =
      .ok names.reverse

section Straight

variable {env : Environment} {d p : Path} {names : List String}

/-- Without links a path leads along the names that normalizing gives it. -/
lemma namesFrom_of_resolve (hresolve : env.root.resolve 0
      (if p.isAbsolute then [] else (Path.walk d.components).reverse) p.segments =
        .ok names.reverse) :
    names = Path.namesFrom d p ∧
      ∀ n ∈ names, n ∈ Path.walk d.components ∨ n.utf8ByteSize ≤ 255 := by
  rw [Entry.resolve] at hresolve
  obtain ⟨hnames, hshort⟩ := Entry.take_eq_ok hresolve
  constructor
  · -- An absolute path starts over at the root, any other one goes on from the directory.
    have hstart : (if p.isAbsolute then [] else (Path.walk d.components).reverse) =
        (if p.isAbsolute then [.root] else if p.segments.head? = some "." then [.here]
          else []).foldl Path.step (d.components.foldl Path.step []) := by
      cases p.isAbsolute with
      | true => rfl
      | false =>
        rw [Path.walk, List.reverse_reverse]
        simp only [Bool.false_eq_true, if_false]
        split <;> rfl
    rw [← List.reverse_reverse names, hnames, hstart, ← List.foldl_append, ← List.foldl_append]
    rfl
  · intro n hn
    rcases hshort n (List.mem_reverse.mpr hn) with hn | hn
    · split at hn
      · cases hn
      · exact .inl (List.mem_reverse.mp hn)
    · exact .inr hn

/-- If the working directory is there, the root is a directory. -/
lemma StandsIn.isDirectory_root (h : env.StandsIn d) : env.root.isDirectory = true := by
  obtain ⟨es, hroot⟩ := h.exists_root_eq
  rw [hroot]
  rfl

/-- **A file at the end of a straight way is also found at the normalized path**, unless that is too
long to be opened. -/
theorem StandsIn.find_normalize (h : env.StandsIn d) (hstraight : env.LeadsStraight d p)
    {content : ByteArray} (hfile : env.find p = .ok (.file content))
    (hshort : (env.normalize p).text.utf8ByteSize < pathLimit) :
    env.find (env.normalize p) = .ok (.file content) := by
  obtain ⟨names, hlocate, hresolve⟩ := hstraight
  obtain ⟨hnames, hbytes⟩ := namesFrom_of_resolve hresolve
  have hat : env.root.at? names = some (.file content) := by
    simp only [find, hlocate, bind, Except.bind] at hfile
    split at hfile
    · next e hat =>
      rw [hat, Except.ok.inj hfile]
    · cases hfile
  have hname : ∀ n ∈ names, Path.IsName n := by
    intro n hn
    exact Path.isName_of_mem_namesFrom (hnames ▸ hn)
  have hsmall : ∀ n ∈ names, Path.IsName n ∧ n.utf8ByteSize ≤ 255 := by
    intro n hn
    exact ⟨hname n hn, (hbytes n hn).elim (h.short n) id⟩
  have hnormalize : env.normalize p = Path.ofNames names := by
    rw [normalize, h.directory, Path.normalize, hnames]
  rw [hnormalize] at hshort ⊢
  have hway : env.locate (Path.ofNames names) = .ok names := by
    rw [h.locate_ofNames hname hshort, destination,
      Entry.resolve_names_of_file h.isDirectory_root hat hsmall]
    exact congrArg Except.ok (List.reverse_reverse names)
  simp only [find, hway, bind, Except.bind, hat]

end Straight
end Environment
end LoopLint
