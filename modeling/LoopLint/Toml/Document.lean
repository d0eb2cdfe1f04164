import LoopLint.Toml.Number

/-!
# TOML documents

A document is a list of lines: pairs of a key and a value, and headers that open a table for the
pairs behind them.  The lines build up one table.  A key can be given once, and a table opened once;
a table that was only named on the way to another one can still be opened, and takes its place in
the order from then on.
-/

namespace LoopLint.Toml

open Scanner

/-! ### Building tables -/

/-- The entries with a new one at the end of a dotted key.  Tables on the way are made if they are
missing; the last of them must have been made in this way. -/
def Entries.insertAt (es : Entries) (path : List Key) (key : Key) (v : Value) : Option Entries :=
  match path with
  | [] => if (es.lookup? key.name).isSome then none else some (es ++ [(key, v)])
  | k :: ks =>
    match es.lookup? k.name with
    | none => do
      let inner ← Entries.insertAt [] ks key v
      some (es ++ [(k, .table .dotted inner none)])
    | some (.table .dotted inner r) => do
      let inner ← Entries.insertAt inner ks key v
      some (es.set k.name (.table .dotted inner r))
    | some (.table .implied inner r) =>
      if ks.isEmpty then none
      else do
        let inner ← Entries.insertAt inner ks key v
        some (es.set k.name (.table .implied inner r))
    | some (.tables items r) =>
      if ks.isEmpty then none
      else do
        let (inner, range) ← items.getLast?
        let inner ← Entries.insertAt inner ks key v
        some (es.set k.name (.tables (items.dropLast ++ [(inner, range)]) r))
    | some _ => none

/-- The entries with a change at the end of a header's path.  Tables on the way are made if they are
missing; of several tables under one key, the last one is meant. -/
def Entries.openAt (es : Entries) (path : List Key) (change : Entries → Option Entries) :
    Option Entries :=
  match path with
  | [] => change es
  | k :: ks =>
    match es.lookup? k.name with
    | none => do
      let inner ← Entries.openAt [] ks change
      some (es ++ [(k, .table .implied inner none)])
    | some (.table .closed _ _) => none
    | some (.table origin inner r) => do
      let inner ← Entries.openAt inner ks change
      some (es.set k.name (.table origin inner r))
    | some (.tables items r) => do
      let (inner, range) ← items.getLast?
      let inner ← Entries.openAt inner ks change
      some (es.set k.name (.tables (items.dropLast ++ [(inner, range)]) r))
    | some _ => none

/-- A pair of a key and a value; the key may have dots. -/
structure Pair where
  path : List Key
  key : Key
  value : Value

/-- The entries with those of some pairs. -/
def Entries.insertAll (es : Entries) (pairs : List Pair) : Option Entries :=
  pairs.foldlM (fun es p => es.insertAt p.path p.key p.value) es

/-- A header, and whether it adds to an array of tables. -/
structure Header where
  path : List Key
  key : Key
  repeated : Bool
  range : TextRange

/-- The range of a table with a header: up to the end of the last value. -/
def Header.reach (h : Header) (pairs : List Pair) : TextRange :=
  match pairs.getLast?.bind (·.value.range?) with
  | some r => ⟨h.range.start, r.stop⟩
  | none => h.range

/-- The entries with the table that a header opens and some pairs fill. -/
def Entries.addSection (es : Entries) (h : Header) (pairs : List Pair) : Option Entries :=
  es.openAt h.path fun parent =>
    let range := h.reach pairs
    if h.repeated then do
      let inner ← Entries.insertAll [] pairs
      match parent.lookup? h.key.name with
      | none => some (parent ++ [(h.key, .tables [(inner, range)] range)])
      | some (.tables items r) =>
        some (parent.set h.key.name (.tables (items ++ [(inner, range)]) ⟨r.start, range.stop⟩))
      | some _ => none
    else
      match parent.lookup? h.key.name with
      | none => do
        let inner ← Entries.insertAll [] pairs
        some (parent ++ [(h.key, .table .header inner (some range))])
      | some (.table .implied known _) => do
        let inner ← Entries.insertAll known pairs
        some (parent.erase h.key.name ++ [(h.key, .table .header inner (some range))])
      | some _ => none

/-! ### Reading -/

/-- A pair inside braces. -/
def inlinePair (value : Scanner Value) : Scanner Pair := do
  let (path, key) ← dottedKey
  let _ ← char '='
  gap
  let v ← value
  gap
  pure ⟨path, key, v⟩

/-- A table between braces, on one line. -/
def inlineTable (value : Scanner Value) : Scanner Value := do
  let (entries, range) ← located (do
    let _ ← char '\x7b'
    let pairs ← maybe (sepBy1 (inlinePair value) (char ','))
    gap
    let _ ← char '\x7d'
    accept (Entries.insertAll [] (pairs.getD [])))
  pure (.table .closed entries (some range))

/-- An array.  A comma may follow the last item. -/
def array (value : Scanner Value) : Scanner Value := do
  let (items, range) ← located (do
    let _ ← char '['
    let items ← maybe (sepBy1 (spacing *> value <* spacing) (char ',') <* maybe (char ','))
    spacing
    let _ ← char ']'
    pure (items.getD []))
  pure (.array items range)

/-- A value with at most the given number of levels inside it. -/
def value : Nat → Scanner Value
  | 0 => do
    let (s, range) ← located scalar
    pure (.scalar s range)
  | levels + 1 =>
    (do
      let (s, range) ← located scalar
      pure (.scalar s range)) <|> array (value levels) <|> inlineTable (value levels)

/-- A line with a meaning. -/
inductive Line where
  | pair (p : Pair)
  | header (h : Header)
  | blank

/-- A pair on a line of its own. -/
def pairLine : Scanner Line := do
  let (path, key) ← dottedKey
  let _ ← char '='
  gap
  let v ← value (levelLimit - 1)
  lineEnd
  pure (.pair ⟨path, key, v⟩)

/-- A header, between single or double brackets. -/
def headerLine : Scanner Line := do
  let (header, range) ← located ((do
    text ['[', '[']
    let k ← dottedKey
    text [']', ']']
    pure (k, true)) <|> (do
    text ['[']
    let k ← dottedKey
    text [']']
    pure (k, false)))
  lineEnd
  let ((path, key), repeated) := header
  pure (.header { path, key, repeated, range })

/-- Any line. -/
def line : Scanner Line := do
  gap
  (do newline; pure .blank) <|> (do comment; newline <|> atEnd; pure .blank) <|>
    headerLine <|> pairLine

/-- All lines of a document, behind a byte order mark if there is one. -/
def documentLines : Scanner (List Line) := do
  let _ ← maybe (char '\ufeff')
  let lines ← many line
  gap
  atEnd
  pure lines

/-- The entries of a document, given those of the sections before and the section being read. -/
def assemble (root : Entries) (header : Option Header) (pairs : List Pair) :
    List Line → Option Entries
  | [] => finish
  | .pair p :: lines => assemble root header (pairs ++ [p]) lines
  | .header h :: lines => do
    let root ← finish
    assemble root (some h) [] lines
  | .blank :: lines => assemble root header pairs lines
where
  /-- The entries with the section being read. -/
  finish : Option Entries :=
    match header with
    | none => root.insertAll pairs
    | some h => root.addSection h pairs

/-- The table of a document, or nothing if the text is no document. -/
def parse (source : String) : Option Entries := do
  let (lines, _) ← documentLines ⟨source.toList, 0⟩
  assemble [] none [] lines

end LoopLint.Toml
