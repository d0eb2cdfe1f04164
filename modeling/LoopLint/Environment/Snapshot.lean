import LoopLint.Check
import LoopLint.Environment.Basic
import LoopLint.Json.Decode
import LoopLint.Json.Parse

/-!
# Snapshots

A snapshot describes the world of a run as one JSON object:

* `directory`: the working directory;
* `variables`: the environment variables, an object of texts;
* `files`: what there is, by absolute path: a text is a file, null a directory, an object with the
  key `link` a symbolic link, and an object with the key `bytes` a file, its bytes as numbers;
* `trees`: the syntax trees of the files, by absolute path, each as the array of its nodes in
  pre-order.  A node is the array of its depth, its kind, its field or an empty text, whether it is
  named, its start and its end.  A file without a tree has syntax errors.
-/

namespace LoopLint

/-- A text whose syntax tree is known. -/
structure KnownText where
  language : Language
  source : String
  /-- Nothing if the text has syntax errors. -/
  tree : Option Tree

/-- The parser that knows some texts, and takes all others for wrong. -/
def KnownText.parser (known : List KnownText) : Parser := fun language source =>
  (known.find? (fun k => k.language == language && k.source == source)).bind (·.tree)

/-- The world of a run. -/
structure Snapshot where
  environment : Environment
  known : List KnownText

namespace Snapshot

/-- The entries of an object, or none. -/
def members : Json → List (String × Json)
  | .obj entries => entries
  | _ => []

/-- The value of a key, or null. -/
def member (v : Json) (key : String) : Json :=
  (Json.member? (members v) key).getD .null

/-- The items of an array, or none. -/
def items : Json → List Json
  | .arr vs => vs
  | _ => []

/-- A text. -/
def text? : Json → Option String
  | .str s => some s
  | _ => none

/-- A number that is not negative. -/
def nat? : Json → Option Nat
  | .num (.ofNat n) => some n
  | _ => none

/-- A file, a directory or a link. -/
def entry : Json → Entry
  | .str s => .file s.toUTF8
  | .null => .directory []
  | v =>
    match text? (member v "link") with
    | some target => .link ⟨target⟩
    | none => .file ⟨(((items (member v "bytes")).filterMap nat?).map Nat.toUInt8).toArray⟩

/-- A node of a syntax tree. -/
def node? : Json → Option PreorderEntry
  | .arr [depth, .str kind, .str field, named, start, stop] => do
    some {
      depth := ← nat? depth
      kind
      field
      named := match named with | .bool b => b | _ => false
      range := ⟨← nat? start, ← nat? stop⟩ }
  | _ => none

/-- The syntax tree of the file at a path. -/
def known? (env : Environment) (path : String) (tree : Json) : Option KnownText := do
  let language ← Language.ofPath? ⟨path⟩
  let source ← (env.readText ⟨path⟩).toOption
  some ⟨language, source, Tree.read? source ((items tree).filterMap node?)⟩

/-- The world that a JSON value describes.  What is missing is taken as empty. -/
def ofJson (v : Json) : Snapshot :=
  let vars := (members (member v "variables")).filterMap fun e => (text? e.2).map (e.1, ·)
  let start : Environment :=
    ⟨.directory [], (text? (member v "directory")).map (⟨·⟩), vars⟩
  let env := (members (member v "files")).foldl (fun env e => env.place ⟨e.1⟩ (entry e.2)) start
  ⟨env, (members (member v "trees")).filterMap fun e => known? env e.1 e.2⟩

end Snapshot
end LoopLint
