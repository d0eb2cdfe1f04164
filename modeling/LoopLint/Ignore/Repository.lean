import LoopLint.Ignore.File

/-!
# Where a repository keeps its own files

A repository keeps its own files in `.git`.  In a further working tree of the same repository `.git`
is a file instead, with a first line `gitdir: place`; the file `commondir` at that place then names
the directory that all working trees share, relative to the place if it starts with a dot.
-/

namespace LoopLint

namespace Repository

/-- The first line of a file, if the file has any. -/
def firstLine? (content : ByteArray) : Except FileError (Option String) :=
  match IgnoreFile.lines content.toList with
  | [] => .ok none
  | line :: _ =>
    match String.fromUTF8? ⟨line.toArray⟩ with
    | some s => .ok (some s)
    | none => .error .notText

/-- What is said of a file that cannot be read. -/
def complaint (p : Path) (e : FileError) : String :=
  p.text ++ ": " ++ e.text

/-- The words before the place of a working tree. -/
def placeMark : String := "gitdir: "

/-- The place that the first line of a `.git` file names. -/
def place? (line : String) : Option Path :=
  (Text.dropPrefix? line.toList placeMark.toList).map (fun rest => ⟨String.ofList rest⟩)

/-- The directory that a line of `commondir` at a place names. -/
def sharedAt (place : Path) (line : String) : Path :=
  if line.toList.head? = some '.' then place.join ⟨line⟩ else ⟨line⟩

/-- The directory that the working tree at a place shares with others.  Without a file `commondir`
there is none. -/
def shared? (env : Environment) (place : Path) : Except String (Option Path) :=
  let p := place.join ⟨"commondir"⟩
  match env.find p with
  | .error _ => .ok none
  | .ok (.file content) =>
    match firstLine? content with
    | .error e => .error (complaint p e)
    | .ok line? => .ok (line?.map (sharedAt place))
  | .ok _ => .error (complaint p .isADirectory)

/-- The directory with the files of the repository whose working tree starts at the given directory.
-/
def directory? (env : Environment) (directory : Path) : Except String (Option Path) :=
  let p := directory.join ⟨".git"⟩
  match env.find p with
  | .ok (.file content) =>
    match firstLine? content with
    | .error e => .error (complaint p e)
    | .ok line? =>
      match line?.bind place? with
      | none => .ok none
      | some place => shared? env place
  | _ => .ok (some p)

end Repository
end LoopLint
