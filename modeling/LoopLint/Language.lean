import LoopLint.Path.Basic

/-!
# Languages

The language of a source file is read off the extension of its name.
-/

namespace LoopLint

/-- The languages that can be checked. -/
inductive Language where
  | javaScript
  | typeScript
  | tsx
deriving DecidableEq, Repr

namespace Language

/-- The language with the given extension.  Case matters. -/
def ofExtension? : String → Option Language
  | "js" | "jsx" | "mjs" | "cjs" => some javaScript
  | "ts" | "mts" | "cts" => some typeScript
  | "tsx" => some tsx
  | _ => none

/-- The language of the file at a path. -/
def ofPath? (p : Path) : Option Language :=
  p.extension?.bind ofExtension?

end Language

/-- Whether the file at a path can be checked. -/
def Path.isSource (p : Path) : Bool :=
  (Language.ofPath? p).isSome

end LoopLint
