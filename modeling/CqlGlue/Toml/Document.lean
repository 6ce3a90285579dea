import CqlGlue.Toml.Node

/-!
# Reading a TOML document

A document is read by its outline, statement by statement. What an outline lacks is found before
anything is read; of the faults within statements the first one is told.

A header says to which table the entries below it belong. That table is put into the document
when the next header comes or the document ends: only then is found out whether an array of
tables can be extended there.

## Main definitions
* `nodeOf` reads a sketch.
* `Draft` is a document that is being read.
* `parse` reads a whole document.
-/

namespace CqlGlue.Toml

/-- How many keys a key with dots may have. -/
def keyLimit : Nat := 80

/-- The keys of a path, of which `n` have been read. -/
def keysOf (n : Nat) : List Piece → Except Fault (List Key)
  | [] => .ok []
  | p :: ps => do
    if keyLimit ≤ n then fault .tooManyKeys p.span
    else
      let k ← keyOf p
      return k :: (← keysOf (n + 1) ps)

/-- A path and the key at its end. -/
def pathOf (ps : List Piece) : Except Fault (List Key × Key) := do
  let keys ← keysOf 0 ps
  return (keys.dropLast, keys.getLastD ⟨"", ⟨0, 0⟩⟩)

mutual

/-- Reads a value. -/
def nodeOf : Sketch → Except Fault Node
  | .piece p => do return .scalar p.span (← scalarOf p)
  | .array span items => do return .array span false (← nodesOf items)
  | .braces span entries => do return .table span .braces (← entriesOf .implied [] entries)

/-- Reads the items of an array. -/
def nodesOf : List Sketch → Except Fault (List Node)
  | [] => .ok []
  | s :: ss => do
    let n ← nodeOf s
    return n :: (← nodesOf ss)

/-- Reads entries between braces on top of others. -/
def entriesOf (origin : Origin) (entries : Entries) :
    List (List Piece × Sketch) → Except Fault Entries
  | [] => .ok entries
  | (ps, s) :: more => do
    let (path, key) ← pathOf ps
    let n ← nodeOf s
    let (origin, entries) ← Entries.define .braces path key n origin entries
    entriesOf origin entries more

end

/-- The header whose table is being read. -/
structure Heading where
  isElement : Bool
  path : List Key
  key : Key
  span : Span

/-- A document that is being read: what has been put into it, the last header, and the entries
below that. -/
structure Draft where
  root : Entries
  heading : Option Heading
  entries : Entries

namespace Draft

/-- The document before its first line. -/
def empty : Draft := ⟨[], none, []⟩

/-- Puts the table of a header under its key. -/
def placed (h : Heading) (table : Node) : Entries.Change := fun origin entries =>
  match h.isElement, Entries.find? entries h.key.name with
  | false, _ => .ok (origin, Entries.erase entries h.key.name ++ [(h.key, table)])
  | true, none => .ok (origin, Entries.put entries h.key (.array h.span true [table]))
  | true, some (.array span true items) =>
    .ok (origin, Entries.put entries h.key (.array span true (items ++ [table])))
  | true, some _ => fault .duplicateKey h.key.span

/-- The document with the table of the last header in it. -/
def finish (d : Draft) : Except Fault Entries :=
  match d.heading with
  | none => .ok d.entries
  | some h => do
    let table : Node := .table h.span .header d.entries
    let (_, root) ← Entries.within .header (placed h table) h.path .header d.root
    return root

/-- The entries that the table of a header has from the beginning. They come from longer
headers; a table that came about in another way is not continued. -/
def begun (h : Heading) (root : Entries) : Except Fault Entries :=
  if h.isElement then .ok []
  else do
    match Entries.find? (← Entries.follow .header h.path root) h.key.name with
    | none => return []
    | some (.table _ .implied entries) => return entries
    | some _ => fault .duplicateKey h.key.span

/-- Reads a statement. -/
def read (d : Draft) : Statement → Except Fault Draft
  | .header isElement span ps => do
    let root ← d.finish
    let (path, key) ← pathOf ps
    let h : Heading := ⟨isElement, path, key, span⟩
    return ⟨root, some h, ← begun h root⟩
  | .entry ps s => do
    let (path, key) ← pathOf ps
    let n ← nodeOf s
    let (_, entries) ← Entries.define .line path key n .header d.entries
    return { d with entries := entries }

end Draft

/-- Reads a document: the entries of its root table. -/
def parse (text : String) : Except Fault Entries := do
  let d ← (← outline text).foldlM Draft.read Draft.empty
  d.finish

/-- Whether a number has a place in sixty-four bits. -/
def Scalar.isSmall : Scalar → Bool
  | integer i => -0x8000000000000000 ≤ i && i < 0x8000000000000000
  | overflow _ => false
  | _ => true

mutual

/-- Whether every number in a value has a place in sixty-four bits. -/
def Node.isSmall : Node → Bool
  | .scalar _ s => s.isSmall
  | .array _ _ items => areSmall items
  | .table _ _ entries => haveSmall entries

/-- Whether every number in a list of values has a place in sixty-four bits. -/
def areSmall : List Node → Bool
  | [] => true
  | n :: ns => n.isSmall && areSmall ns

/-- Whether every number in the entries of a table has a place in sixty-four bits. -/
def haveSmall : List (Key × Node) → Bool
  | [] => true
  | (_, n) :: es => n.isSmall && haveSmall es

end

end CqlGlue.Toml
