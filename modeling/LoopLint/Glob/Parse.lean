import LoopLint.Glob.Basic

/-!
# Reading globs

A glob is read from left to right.  A backslash takes away the meaning of the character behind it.
Whether `**` stands for directories depends on its surroundings: it does between slashes, at the
start or the end of the glob, and at the start or the end of a branch of a group; elsewhere it is
two stars.
-/

namespace LoopLint

/-- Why a text is no glob. -/
inductive GlobError where
  | unclosedClass
  | invalidRange (lo hi : Char)
  | unopenedGroup
  | unclosedGroup
  | danglingEscape
deriving DecidableEq, Repr

/-- What is said of an error. -/
def GlobError.text : GlobError → String
  | unclosedClass => "unclosed character class; missing ']'"
  | invalidRange lo hi => "invalid range; '" ++ lo.toString ++ "' > '" ++ hi.toString ++ "'"
  | unopenedGroup =>
    "unopened alternate group; missing '\x7b' (maybe escape '\x7d' with '[\x7d]'?)"
  | unclosedGroup =>
    "unclosed alternate group; missing '\x7d' (maybe escape '\x7b' with '[\x7b]'?)"
  | danglingEscape => "dangling '\\'"

namespace Glob

/-- The bytes that a character stands for. -/
def literal (c : Char) : List Token :=
  (String.utf8EncodeChar c).map .byte

/-! ### Classes -/

/-- The ranges of a class and what follows it, if the class is closed.  The ranges read so far come
with the last one first; a dash is a character of its own at the start and at the end. -/
def classBody (first inRange : Bool) (ranges : List (Char × Char)) :
    List Char → Except GlobError (Option (List (Char × Char) × List Char))
  | [] => .ok none
  | c :: cs =>
    if c = ']' ∧ first = false then
      .ok (some ((if inRange then ('-', '-') :: ranges else ranges).reverse, cs))
    else if c = '-' ∧ first = false ∧ inRange = false then classBody false true ranges cs
    else match inRange, ranges with
      | true, (lo, _) :: rs =>
        if c < lo then .error (.invalidRange lo c) else classBody false false ((lo, c) :: rs) cs
      | _, _ => classBody false false ((c, c) :: ranges) cs

/-- What stands behind the bracket that opens a class: whether it is negated, its ranges, and what
follows it. -/
def scanClass (cs : List Char) :
    Except GlobError (Option (Bool × List (Char × Char) × List Char)) :=
  match cs with
  | '!' :: rest => (classBody true false [] rest).map (Option.map (fun r => (true, r)))
  | '^' :: rest => (classBody true false [] rest).map (Option.map (fun r => (true, r)))
  | _ => (classBody true false [] cs).map (Option.map (fun r => (false, r)))

/-- The byte ranges of a range of characters.  Only the last byte of the lower character and the
first byte of the upper one span a range; the other bytes stand for themselves. -/
def byteRanges (r : Char × Char) : List (UInt8 × UInt8) :=
  let single (b : UInt8) := (b, b)
  let lo := String.utf8EncodeChar r.1
  let hi := String.utf8EncodeChar r.2
  if r.1 = r.2 then lo.map single
  else match lo.getLast?, hi with
    | some l, h :: hs => lo.dropLast.map single ++ (l, h) :: hs.map single
    | _, _ => []

/-! ### The reader -/

/-- How far a glob has been read: the pieces of the branch being read, the last one first; for each
open group, the innermost first, its finished branches and the pieces of the branch around it, both
with the last one first; the character just read; and whether an opening bracket stands for itself.
-/
structure Scan where
  current : List Token
  groups : List (List (List Token) × List Token)
  before : Option Char
  bracketsPlain : Bool

namespace Scan

/-- Pieces read, the character `c` being the last one used up. -/
def push (s : Scan) (ts : List Token) (c : Char) : Scan :=
  { s with current := ts.reverse ++ s.current, before := some c }

/-- `**` for directories.  It takes the place of the character before it, the last one read. -/
def pushDirectories (s : Scan) (t : Token) (c : Char) : Scan :=
  match s.current with
  | .leading :: ts => { s with current := .leading :: ts, before := some c }
  | .trailing :: ts => { s with current := .trailing :: ts, before := some c }
  | _ :: ts => { s with current := t :: ts, before := some c }
  | [] => { s with current := [t], before := some c }

/-- Whether `**` may stand for directories after what has been read: behind a slash, and in a group
also behind an escaped comma or brace. -/
def mayTakeDirectories (s : Scan) : Bool :=
  s.before == some '/' ||
    (!s.groups.isEmpty && (s.before == some ',' || s.before == some '\x7b'))

/-- `{`: a group opens. -/
def openGroup (s : Scan) : Scan :=
  { s with current := [], groups := ([], s.current) :: s.groups, before := some '\x7b' }

/-- Whether a branch matches only the empty text for want of pieces. -/
def isVoid (branch : List Token) : Bool :=
  branch.all (fun t => match t with | .anyOf [] => true | _ => false)

/-- `}`: the innermost group closes.  Branches without pieces are left out. -/
def closeGroup (s : Scan) : Except GlobError Scan :=
  match s.groups with
  | [] => .error .unopenedGroup
  | (done, outer) :: gs =>
    let branches := (s.current.reverse :: done).reverse.filter (fun b => !isVoid b)
    .ok { s with current := .anyOf branches :: outer, groups := gs, before := some '\x7d' }

/-- `,`: the next branch of the innermost group; outside groups, a comma. -/
def comma (s : Scan) : Scan :=
  match s.groups with
  | [] => s.push (literal ',') ','
  | (done, outer) :: gs =>
    { s with current := [], groups := (s.current.reverse :: done, outer) :: gs, before := some ',' }

end Scan

/-- Reading the body of a class takes up some text. -/
theorem length_lt_of_classBody {first inRange : Bool} {ranges rs : List (Char × Char)}
    {cs rest : List Char} (h : classBody first inRange ranges cs = .ok (some (rs, rest))) :
    rest.length < cs.length := by
  fun_induction classBody first inRange ranges cs with
  | case1 => simp at h
  | case2 => simp at h; simp [← h.2]
  | case3 _ _ _ _ _ _ _ ih => exact Nat.lt_succ_of_lt (ih h)
  | case4 => simp at h
  | case5 _ _ _ _ _ _ _ _ _ ih => exact Nat.lt_succ_of_lt (ih h)
  | case6 _ _ _ _ _ _ _ _ ih => exact Nat.lt_succ_of_lt (ih h)

/-- Reading a class takes up some text. -/
theorem length_lt_of_scanClass {cs rest : List Char} {negated : Bool} {rs : List (Char × Char)}
    (h : scanClass cs = .ok (some (negated, rs, rest))) : rest.length < cs.length := by
  have key : ∀ (negated' : Bool) (ds : List Char),
      (classBody true false [] ds).map (Option.map (fun r => (negated', r))) =
        .ok (some (negated, rs, rest)) → rest.length < ds.length := by
    intro negated' ds hd
    cases hb : classBody true false [] ds with
    | error e => simp [hb, Except.map] at hd
    | ok v =>
      cases v with
      | none => simp [hb, Except.map] at hd
      | some r =>
        simp only [hb, Except.map, Option.map_some, Except.ok.injEq, Option.some.injEq,
          Prod.mk.injEq] at hd
        have hr : classBody true false [] ds = .ok (some (rs, rest)) := by rw [hb, ← hd.2]
        exact length_lt_of_classBody hr
  unfold scanClass at h
  split at h
  · exact Nat.lt_succ_of_lt (key _ _ h)
  · exact Nat.lt_succ_of_lt (key _ _ h)
  · exact key _ _ h

/-- Reads on.  With `lenient` set, the bracket of a class that is never closed stands for itself, as
do all brackets after it. -/
def scan (lenient : Bool) (s : Scan) : List Char → Except GlobError Scan
  | [] => .ok s
  | '?' :: cs => scan lenient (s.push [.any] '?') cs
  | '*' :: '*' :: cs =>
    if s.current.isEmpty then
      match cs with
      | [] => .ok (s.push [.leading] '*')
      | '/' :: cs => scan lenient (s.push [.leading] '/') cs
      | cs => scan lenient (s.push [.star, .star] '*') cs
    else if !s.mayTakeDirectories then scan lenient (s.push [.star, .star] '*') cs
    else match cs with
      | [] => .ok (s.pushDirectories .trailing '*')
      | '/' :: cs => scan lenient (s.pushDirectories .between '/') cs
      | c :: cs =>
        if (c = ',' ∨ c = '\x7d') ∧ s.groups ≠ [] then
          scan lenient (s.pushDirectories .trailing '*') (c :: cs)
        else scan lenient (s.push [.star, .star] '*') (c :: cs)
  | '*' :: cs => scan lenient (s.push [.star] '*') cs
  | '[' :: cs =>
    if s.bracketsPlain then scan lenient (s.push (literal '[') '[') cs
    else match _h : scanClass cs with
      | .error e => .error e
      | .ok (some (negated, ranges, rest)) =>
        scan lenient (s.push [.oneOf negated (ranges.flatMap byteRanges)] ']') rest
      | .ok none =>
        if lenient then
          scan lenient { s.push (literal '[') '[' with bracketsPlain := true } cs
        else .error .unclosedClass
  | '\x7b' :: cs => scan lenient s.openGroup cs
  | '\x7d' :: cs =>
    match s.closeGroup with
    | .error e => .error e
    | .ok s => scan lenient s cs
  | ',' :: cs => scan lenient s.comma cs
  | '\\' :: [] => .error .danglingEscape
  | '\\' :: c :: cs => scan lenient (s.push (literal c) c) cs
  | c :: cs => scan lenient (s.push (literal c) c) cs
termination_by cs => cs.length
decreasing_by
  all_goals simp only [List.length_cons]
  all_goals try have := length_lt_of_scanClass _h
  all_goals omega

/-- The glob that a text stands for. -/
def parse (lenient : Bool) (text : List Char) : Except GlobError Glob :=
  match scan lenient ⟨[], [], none, false⟩ text with
  | .error e => .error e
  | .ok s => if s.groups.isEmpty then .ok ⟨s.current.reverse⟩ else .error .unclosedGroup

end Glob
end LoopLint
