import CqlGlue.Toml.Scalar

/-!
# Parsed documents

A TOML document as a tree. Every node knows the stretch of text it was read from, so that a
reader with expectations about its shape can point at the place that disappoints them. Tables
also remember how they came about, because that decides what may still be added to them.

## Main definitions
* `Node` is a value with its place.
* `Origin` says how a table was written.
* `Entries.within` changes the table at the end of a path.
* `Entries.define` adds a value to a table under the rules of redefinition.
-/

namespace CqlGlue.Toml

/-- How a table was written. -/
inductive Origin where
  /-- Under a header of its own, or as the whole document. -/
  | header
  /-- As a part of a longer header. -/
  | implied
  /-- As a part of a dotted key. -/
  | dotted
  /-- Between braces. -/
  | braces
  deriving DecidableEq, Repr

/-- A value and its place. -/
inductive Node where
  | scalar (span : Span) (value : Scalar)
  /-- `ofTables` marks arrays written as repeated headers. -/
  | array (span : Span) (ofTables : Bool) (items : List Node)
  | table (span : Span) (origin : Origin) (entries : List (Key × Node))

/-- Where a node was read. -/
def Node.span : Node → Span
  | scalar s _ | array s _ _ | table s _ _ => s

/-- What a kind of value is called. -/
def Scalar.kind : Scalar → String
  | text _ => "string"
  | integer _ => "integer"
  | float _ => "float"
  | boolean _ => "boolean"
  | moment _ => "datetime"
  | overflow isFloat => if isFloat then "float" else "integer"

/-- The entries of a table in order of definition. -/
abbrev Entries := List (Key × Node)

/-- Where a path of keys is written, which decides where it may lead. -/
inductive PathKind where
  /-- In a header. -/
  | header
  /-- In front of a value. -/
  | line
  /-- In front of a value between braces. -/
  | braces
  deriving DecidableEq, Repr

/-- How the tables that a path makes on its way come about. -/
def PathKind.origin : PathKind → Origin
  | header => .implied
  | line | braces => .dotted

namespace Entries

/-- The entry under a name. -/
def find? (entries : Entries) (name : String) : Option Node :=
  (List.find? (fun e => e.1.name == name) entries).map Prod.snd

/-- Gives a key a value. A key that is there already keeps its place. -/
def put (entries : Entries) (key : Key) (node : Node) : Entries :=
  if (find? entries key.name).isSome then
    entries.map fun e => if e.1.name == key.name then (e.1, node) else e
  else entries ++ [(key, node)]

/-- The entries without the one under a name. -/
def erase (entries : Entries) (name : String) : Entries := entries.filter (·.1.name != name)

/-- A change to a table, which may be refused. -/
abbrev Change := Origin → Entries → Except Fault (Origin × Entries)

/-- Why a path of a kind may not lead through a table under a key, if it may not. Only headers
lead into a table that has a header of its own, and no path leads into a table between braces. -/
def refusal? (kind : PathKind) (key : Key) (inner : Origin) : Option Fault :=
  match kind, inner with
  | .braces, .braces | .line, .header | .braces, .header => some ⟨.duplicateKey, key.span⟩
  | _, .braces => some ⟨.notExtensible "inline table", key.span⟩
  | _, _ => none

/-- The table that a key leads into, given what stands there, and how a changed table is put
back. Where nothing stands a table is made; in an array of tables the last one is meant. -/
def inside (kind : PathKind) (key : Key) :
    Option Node → Except Fault (Origin × Entries × (Origin → Entries → Node))
  | none => .ok (kind.origin, [], .table key.span)
  | some (.table span inner entries) =>
    match refusal? kind key inner with
    | some f => .error f
    | none => .ok (inner, entries, .table span)
  | some (.array span ofTables items) =>
    match ofTables, items.getLast? with
    | true, some (.table last inner entries) =>
      .ok (inner, entries, fun inner entries =>
        .array span true (items.dropLast ++ [.table last inner entries]))
    | _, _ => fault (.notExtensible "array") key.span
  | some (.scalar _ s) => fault (.notExtensible s.kind) key.span

/-- The entries of the table at the end of a path. -/
def follow (kind : PathKind) : List Key → Entries → Except Fault Entries
  | [], entries => .ok entries
  | k :: path, entries => do
    let (_, sub, _) ← inside kind k (find? entries k.name)
    follow kind path sub

/-- Applies a change to the table at the end of a path, making the tables on the way. -/
def within (kind : PathKind) (change : Change) : List Key → Change
  | [], origin, entries => change origin entries
  | k :: path, origin, entries => do
    let (inner, sub, back) ← inside kind k (find? entries k.name)
    let (inner, sub) ← within kind change path inner sub
    return (origin, put entries k (back inner sub))

/-- Adds a value under a key at the end of a path. A key is defined once, and a table that was
begun in another way is not continued by dotted keys. -/
def define (kind : PathKind) (path : List Key) (key : Key) (value : Node) : Change :=
  within kind
    (fun origin entries =>
      if (origin == .dotted) == path.isEmpty || (find? entries key.name).isSome then
        fault .duplicateKey key.span
      else .ok (origin, entries ++ [(key, value)]))
    path

end Entries

end CqlGlue.Toml
