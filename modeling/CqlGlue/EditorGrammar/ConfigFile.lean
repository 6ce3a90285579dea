import CqlGlue.Decimal.Shortest
import CqlGlue.Text.Pieces
import CqlGlue.Text.Quoted
import CqlGlue.Text.Position
import CqlGlue.Toml.Document
import CqlGlue.EditorGrammar.Config

/-!
# Configuration files

A configuration file is a TOML document that replaces tables of a configuration. Tables it
leaves out keep what they were. Keys are taken in alphabetical order, so tables come out
sorted and of several faults the one under the first key is reported.

## Main definitions
* `ConfigError` lists what can be wrong with a file.
* `Config.parse` reads a file on top of the default tables.
-/

namespace CqlGlue.EditorGrammar

open Toml

/-- What a reader hoped to find. -/
inductive Expected where
  | text
  | sequence
  | set
  | map
  deriving DecidableEq, Repr

/-- The wording of a hope. -/
def Expected.message : Expected → String
  | text => "a string"
  | sequence => "a sequence"
  | set => "a set"
  | map => "a map"

/-- The names of the tables, in the order in which messages list them. -/
def tableNames : List String :=
  ["name", "header", "conflicts", "line_break_rules", "precedence", "renames", "suppressed",
    "deleted", "reference_overrides", "rule_overrides"]

/-- What can be wrong with a configuration file. -/
inductive ConfigError where
  /-- The text is no TOML document. -/
  | notToml (fault : Fault)
  /-- A value has the wrong shape. -/
  | wrongType (found : Node) (expected : Expected)
  /-- A key names no table. -/
  | unknownTable (key : Key)

/-- What a node is called in messages. Integers beyond sixty-four bits are called by the size of
the integers that hold them. -/
def nodeMessage : Node → String
  | .scalar _ (.text s) => "string " ++ Text.quoted s
  | .scalar _ (.integer i) =>
    "integer `" ++ toString i ++ "`" ++
      if -0x8000000000000000 ≤ i && i < 0x10000000000000000 then ""
      else if i < 0x80000000000000000000000000000000 then " as i128"
      else " as u128"
  | .scalar _ (.float f) => "floating point `" ++ Decimal.positionalText f ++ "`"
  | .scalar _ (.boolean b) => "boolean `" ++ toString b ++ "`"
  | .scalar _ (.overflow isFloat) =>
    (if isFloat then "floating-point" else "integer") ++ " number overflowed"
  | .scalar _ (.moment _) => "map"
  | .array _ _ _ => "sequence"
  | .table _ _ _ => "map"

namespace ConfigError

/-- The wording of a fault, without its place. -/
def message : ConfigError → String
  | notToml fault => fault.cause.message
  | wrongType (.scalar span (.overflow isFloat)) _ => nodeMessage (.scalar span (.overflow isFloat))
  | wrongType found expected =>
    "invalid type: " ++ nodeMessage found ++ ", expected " ++ expected.message
  | unknownTable key =>
    "unknown field `" ++ key.name ++ "`, expected one of " ++
      String.intercalate ", " (tableNames.map fun n => "`" ++ n ++ "`")

/-- Where a fault lies, if it is shown. -/
def place? : ConfigError → Option Span
  | notToml fault => fault.place?
  | wrongType found _ => some found.span
  | unknownTable key => some key.span

/-- The line a stretch of text begins in, with a mark below the stretch. -/
def excerpt (text : String) (span : Span) : String :=
  let place := Text.Position.ofByte text.toList span.first
  let content := ((Text.splitChar '\n' text.toList)[place.line]?).getD []
  let lineNumber := toString (place.line + 1)
  let margin := String.ofList (List.replicate (lineNumber.length + 1) ' ') ++ "|"
  let width := min (span.stop - span.first) (Text.byteLength content - place.column)
  "TOML parse error at line " ++ lineNumber ++ ", column " ++ toString (place.column + 1) ++
    "\n" ++ margin ++ "\n" ++ lineNumber ++ " | " ++ String.ofList content ++ "\n" ++
    margin ++ String.ofList (List.replicate (place.column + 1) ' ') ++
    String.ofList (List.replicate (max width 1) '^') ++ "\n"

/-- The fault, below the line it lies in where that is shown. -/
def report (text : String) (e : ConfigError) : String :=
  ((e.place?.map (excerpt text)).getD "") ++ e.message ++ "\n"

end ConfigError

/-- Entries in alphabetical order of their keys. -/
def sortedEntries (entries : Entries) : Entries :=
  entries.mergeSort fun a b => !(b.1.name < a.1.name : Bool)

/-- A text. -/
def asText : Node → Except ConfigError String
  | .scalar _ (.text s) => .ok s
  | n => .error (.wrongType n .text)

/-- A list of texts, where messages call the list as `expected` says. -/
def asTexts (expected : Expected) : Node → Except ConfigError (List String)
  | .array _ _ items => items.mapM asText
  | n => .error (.wrongType n expected)

/-- A list of lists of texts. -/
def asGroups : Node → Except ConfigError (List (List String))
  | .array _ _ items => items.mapM (asTexts .sequence)
  | n => .error (.wrongType n .sequence)

/-- A set of texts. -/
def asNames (n : Node) : Except ConfigError NameSet := (asTexts .set n).map NameSet.ofList

/-- A table of texts. A moment counts as a table with one entry. -/
def asTable : Node → Except ConfigError (Table String)
  | .table _ _ entries =>
    ((sortedEntries entries).mapM fun e => (asText e.2).map fun s => (e.1.name, s)).map
      Table.ofList
  | .scalar _ (.moment m) => .ok (Table.ofList [("$__toml_private_datetime", m.text)])
  | n => .error (.wrongType n .map)

namespace Config

/-- Replaces the table a key names. -/
def setTable (config : Config) (key : Key) (n : Node) : Except ConfigError Config :=
  match key.name with
  | "name" => (asText n).map fun v => { config with name := v }
  | "header" => (asText n).map fun v => { config with header := v }
  | "conflicts" => (asGroups n).map fun v => { config with conflicts := v }
  | "line_break_rules" => (asNames n).map fun v => { config with lineBreakRules := v }
  | "precedence" => (asTable n).map fun v => { config with precedence := v }
  | "renames" => (asTable n).map fun v => { config with renames := v }
  | "suppressed" => (asNames n).map fun v => { config with suppressed := v }
  | "deleted" => (asNames n).map fun v => { config with deleted := v }
  | "reference_overrides" => (asTable n).map fun v => { config with referenceOverrides := v }
  | "rule_overrides" => (asTable n).map fun v => { config with ruleOverrides := v }
  | _ => .error (.unknownTable key)

/-- The configuration that a document describes. -/
def ofEntries (entries : Entries) : Except ConfigError Config :=
  (sortedEntries entries).foldlM (fun c e => c.setTable e.1 e.2) standard

/-- Reads a configuration file on top of the default tables. -/
def parse (text : String) : Except ConfigError Config :=
  match Toml.parse text with
  | .error f => .error (.notToml f)
  | .ok entries => ofEntries entries

end Config

/-- Whether a text is a document all of whose numbers have a place in sixty-four bits. What is
wrong with such a text as a configuration file is its shape alone. -/
def isPlainDocument (text : String) : Bool :=
  match Toml.parse text with
  | .error _ => false
  | .ok entries => haveSmall entries

end CqlGlue.EditorGrammar
