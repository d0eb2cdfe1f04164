import LoopLint.Text.Split

/-!
# Paths

A path is a text, and what it means is the list of its components: the root, a leading `.`, `..`,
and names.  Empty segments and a `.` behind the first segment mean nothing, so that `a//b`, `a/./b`
and `a/b/` are all the path `a/b`.  Paths are compared by their components, never by their texts.

A file system may also hold names that are no Unicode text.  These are outside the model: a path is
a text, and so are its names.
-/

namespace LoopLint

/-- A path as it is written. -/
structure Path where
  text : String
deriving DecidableEq, Repr

namespace Path

/-- A step of a path. -/
inductive Component where
  /-- The root directory, at the start of an absolute path. -/
  | root
  /-- A `.` at the start of a relative path. -/
  | here
  /-- A `..`. -/
  | up
  /-- The name of an entry. -/
  | name (s : String)
deriving DecidableEq, Repr

namespace Component

/-- The root comes before `.`, that before `..`, and names come last. -/
def rank : Component → Nat
  | root => 0
  | here => 1
  | up => 2
  | name _ => 3

/-- The spelling among components of one rank. -/
def spelling : Component → String
  | name s => s
  | _ => ""

/-- Components are ordered by rank, names among themselves by their characters. -/
protected def compare (a b : Component) : Ordering :=
  (compare a.rank b.rank).then (compare a.spelling b.spelling)

/-- The text of a component. -/
def text : Component → String
  | root => "/"
  | here => "."
  | up => ".."
  | name s => s

end Component

/-- The texts between the slashes. -/
def segments (p : Path) : List String :=
  (Text.splitOn '/' p.text.toList).map String.ofList

/-- Whether the path starts at the root. -/
def isAbsolute (p : Path) : Bool :=
  p.text.toList.head? == some '/'

/-- The component that a segment stands for, if it stands for one wherever it is. -/
def component? (segment : String) : Option Component :=
  if segment = "" ∨ segment = "." then none
  else if segment = ".." then some .up
  else some (.name segment)

/-- The steps of the path. -/
def components (p : Path) : List Component :=
  (if p.isAbsolute then [.root]
    else if p.segments.head? = some "." then [.here]
    else []) ++ p.segments.filterMap component?

/-- Whether two paths have the same components. -/
def same (p q : Path) : Bool :=
  p.components == q.components

/-- The order of paths: component by component. -/
protected def compare (p q : Path) : Ordering :=
  List.compareLex Component.compare p.components q.components

/-- The path below `p` that `q` names; an absolute `q` stands for itself. -/
def join (p q : Path) : Path :=
  if q.isAbsolute then q
  else if p.text = "" ∨ p.text.toList.getLast? = some '/' then ⟨p.text ++ q.text⟩
  else ⟨p.text ++ "/" ++ q.text⟩

/-- The last component, if it is a name. -/
def fileName? (p : Path) : Option String :=
  match p.components.getLast? with
  | some (.name s) => some s
  | _ => none

/-- What follows the last dot of the file name.  A dot that starts the name does not count. -/
def extension? (p : Path) : Option String :=
  p.fileName?.bind fun s =>
    let backwards := s.toList.reverse
    let ext := (backwards.takeWhile (· ≠ '.')).reverse
    let stem := (backwards.dropWhile (· ≠ '.')).drop 1
    if stem.isEmpty then none else some (String.ofList ext)

/-! ### Absolute paths -/

/-- The text of an absolute path with the given names. -/
def ofNames (names : List String) : Path :=
  ⟨"/" ++ "/".intercalate names⟩

/-- One step from the directory with the given names, the nearest first. -/
def step (names : List String) : Component → List String
  | .root => []
  | .here => names
  | .up => names.tail
  | .name s => s :: names

/-- The names on the way from the root that a list of steps takes. -/
def walk (cs : List Component) : List String :=
  (cs.foldl step []).reverse

/-- The names on the way from the root to the path, seen from a directory. -/
def namesFrom (directory p : Path) : List String :=
  walk (directory.components ++ p.components)

/-- The path from the root without `.` and `..`.  Nothing is looked up, so a `..` behind a link
leads back to where the link stands.  Without a known working directory the path stays as it is. -/
def normalize (directory : Option Path) (p : Path) : Path :=
  match directory with
  | none => p
  | some d => ofNames (namesFrom d p)

/-- The names behind a list of names, if they start with it. -/
def below? : List String → List String → Option (List String)
  | [], names => some names
  | _ :: _, [] => none
  | d :: ds, n :: ns => if d = n then below? ds ns else none

/-- The path seen from the working directory, if it lies below it; otherwise the path as it is
written. -/
def relativize (directory : Option Path) (p : Path) : String :=
  match directory with
  | none => p.text
  | some d =>
    match below? (walk d.components) (namesFrom d p) with
    | some (n :: ns) => "/".intercalate (n :: ns)
    | _ => p.text

/-- A list, and what is left of it when its first items are taken off one by one. -/
def upward {α : Type} : List α → List (List α)
  | [] => [[]]
  | a :: as => (a :: as) :: upward as

/-! ### Directories above a path -/

/-- The components behind the root. -/
def steps (p : Path) : List Component :=
  if p.isAbsolute then p.components.tail else p.components

/-- The path that takes the given steps, from the root or not. -/
def ofSteps (absolute : Bool) (cs : List Component) : Path :=
  ⟨(if absolute then "/" else "") ++ "/".intercalate (cs.map Component.text)⟩

/-- The path and the directories above it, the path itself first.  The last component is taken off
whatever it is, also a `..`, and behind the first component of a relative path comes the empty path.
All of them are spelled with single slashes. -/
def ancestors (p : Path) : List Path :=
  (upward p.steps.reverse).map fun cs => ofSteps p.isAbsolute cs.reverse

end Path
end LoopLint
