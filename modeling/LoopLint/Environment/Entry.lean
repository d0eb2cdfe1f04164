import LoopLint.Failure

/-!
# File trees

A file tree as a value: files with their bytes, directories with their entries, and symbolic links.
An entry is reached by the names on the way from the root; `Entry.resolve` takes that way as the
file system does, through links and `..`.  Names are texts: entries whose names are no Unicode text
are outside the model.
-/

namespace LoopLint

/-- What a name in a directory stands for. -/
inductive Entry where
  | file (content : ByteArray)
  | directory (entries : List (String × Entry))
  | link (target : Path)

namespace Entry

/-- The entries of a directory; anything else has none. -/
def entries : Entry → List (String × Entry)
  | directory es => es
  | _ => []

/-- Whether the entry itself is a directory.  A link to one is not. -/
def isDirectory : Entry → Bool
  | directory _ => true
  | _ => false

/-- What the name stands for among some entries. -/
def lookup? (es : List (String × Entry)) (name : String) : Option Entry :=
  (es.find? (fun e => e.1 == name)).map (·.2)

/-- What is reached by a list of names, without following links. -/
def at? (e : Entry) : List String → Option Entry
  | [] => some e
  | n :: ns => (lookup? e.entries n).bind (fun child => child.at? ns)

/-- The entries with one more name, or with another meaning of a name. -/
def update (name : String) (e : Entry) : List (String × Entry) → List (String × Entry)
  | [] => [(name, e)]
  | x :: xs => if x.1 = name then (name, e) :: xs else x :: update name e xs

/-- The tree with an entry put at the end of a list of names; directories on the way are made, and a
directory that is there already keeps its entries. -/
def insert (e : Entry) : List String → Entry → Entry
  | [], new =>
    match e, new with
    | directory es, directory [] => directory es
    | _, _ => new
  | n :: ns, new =>
    directory (update n (((lookup? e.entries n).getD (directory [])).insert ns new) e.entries)

/-- The names on the way that some steps take from the directory `here`, whose own names are given
with the nearest first.  A step that is empty or `.` stays, `..` goes up, and a link continues with
its target as `follow` says. -/
def take (root : Entry) (follow : List String → List String → Except FileError (List String))
    (here : List String) : List String → Except FileError (List String)
  | [] => .ok here
  | s :: rest =>
    match root.at? here.reverse with
    | some (directory es) =>
      if s = "" ∨ s = "." then take root follow here rest
      else if s = ".." then take root follow here.tail rest
      else if 255 < s.utf8ByteSize then .error .nameTooLong
      else match lookup? es s with
        | none => .error .notFound
        | some (link target) =>
          follow (if target.isAbsolute then [] else here) (target.segments ++ rest)
        | some _ => take root follow (s :: here) rest
    | some _ => .error .notADirectory
    | none => .error .notFound

/-- The names on the way that some steps take, through at most `links` links. -/
def resolve (root : Entry) : Nat → List String → List String → Except FileError (List String)
  | 0 => root.take fun _ _ => .error .tooManyLinks
  | links + 1 => root.take (resolve root links)

end Entry
end LoopLint
