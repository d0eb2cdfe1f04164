/-!
# Globs

A glob is a pattern for paths.  `?` stands for one byte and `*` for any number of bytes, neither of
them for a slash; `[a-z]` for a byte of a class; `{a,b}` for either of two patterns; `**` for any
number of directories.  A path is matched as a whole, as the bytes of its UTF-8 form.
-/

namespace LoopLint.Glob

/-- A piece of a glob. -/
inductive Token where
  /-- A byte that stands for itself. -/
  | byte (b : UInt8)
  /-- `?`: a byte other than a slash. -/
  | any
  /-- `*`: bytes other than slashes. -/
  | star
  /-- `**/` at the start: nothing, or directories up to and with a slash. -/
  | leading
  /-- `/**` at the end: a slash and all that follows. -/
  | trailing
  /-- `/**/`: a slash, or directories between two slashes. -/
  | between
  /-- A byte that lies in one of the ranges, or in none of them. -/
  | oneOf (negated : Bool) (ranges : List (UInt8 × UInt8))
  /-- One of several patterns; nothing, if there are none. -/
  | anyOf (branches : List (List Token))
deriving Repr

/-- The slash. -/
def slash : UInt8 := 47

/-- All ends of a list, the list itself first and the empty list last. -/
def suffixes : List UInt8 → List (List UInt8)
  | [] => [[]]
  | b :: bs => (b :: bs) :: suffixes bs

/-- The ends of a list that come behind a slash. -/
def afterSlashes : List UInt8 → List (List UInt8)
  | [] => []
  | b :: bs => if b = slash then bs :: afterSlashes bs else afterSlashes bs

/-- The ends of a list that only bytes other than slashes come before. -/
def withinSegment : List UInt8 → List (List UInt8)
  | [] => [[]]
  | b :: bs => if b = slash then [b :: bs] else (b :: bs) :: withinSegment bs

/-- Whether a byte lies in one of some ranges. -/
def inRanges (ranges : List (UInt8 × UInt8)) (b : UInt8) : Bool :=
  ranges.any (fun r => r.1 ≤ b && b ≤ r.2)

/-- Each of some ends of one list once. -/
def distinct : List (List UInt8) → List (List UInt8)
  | [] => []
  | e :: es =>
    let rest := distinct es
    if rest.any (fun x => x.length == e.length) then rest else e :: rest

mutual

/-- What may be left of a text behind a piece of a glob. -/
def restsOf (t : Token) (s : List UInt8) : List (List UInt8) :=
  match t with
  | .byte b =>
    match s with
    | c :: cs => if b = c then [cs] else []
    | [] => []
  | .any =>
    match s with
    | c :: cs => if c = slash then [] else [cs]
    | [] => []
  | .star => withinSegment s
  | .leading => s :: afterSlashes s
  | .trailing =>
    match s with
    | c :: cs => if c = slash then suffixes cs else []
    | [] => []
  | .between =>
    match s with
    | c :: cs => if c = slash then cs :: afterSlashes cs else []
    | [] => []
  | .oneOf negated ranges =>
    match s with
    | c :: cs => if inRanges ranges c != negated then [cs] else []
    | [] => []
  | .anyOf [] => [s]
  | .anyOf (b :: bs) => restsAll b [s] ++ restsAny bs s

/-- What may be left of some texts behind a row of pieces. -/
def restsAll (ts : List Token) (ss : List (List UInt8)) : List (List UInt8) :=
  match ts with
  | [] => ss
  | t :: ts => restsAll ts (distinct (ss.flatMap (restsOf t)))

/-- What may be left of a text behind one of several rows. -/
def restsAny (branches : List (List Token)) (s : List UInt8) : List (List UInt8) :=
  match branches with
  | [] => []
  | b :: bs => restsAll b [s] ++ restsAny bs s

end

end LoopLint.Glob

namespace LoopLint

/-- A glob: its pieces in order. -/
structure Glob where
  tokens : List Glob.Token
deriving Repr

/-- Whether a path matches.  `**` alone matches everything. -/
def Glob.matches (g : Glob) (path : List UInt8) : Bool :=
  match g.tokens with
  | [.leading] => true
  | ts => (Glob.restsAll ts [path]).any (·.isEmpty)

end LoopLint
