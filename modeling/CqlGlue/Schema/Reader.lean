import CqlGlue.Json.Record
import CqlGlue.Schema.Basic

/-!
# Reading a schema

The records of a schema as decoders of JSON. Members the model does not know are passed over.

## Main definitions
* `Schema.parse` reads the text of a schema.
* `SchemaError` is a fault together with the path of the schema.
-/

namespace CqlGlue

open Json Json.Decoder

/-- A field that must be there. -/
def required {α : Type} (missing : String → Cause) (name : String) : Option α → Except Cause α
  | some a => .ok a
  | none => .error (missing name)

/-- The fields of an argument read so far. -/
structure ArgumentDraft where
  name : Option String := none
  type : Option CoreType := none
  isNotNull : Option Bool := none
  binding : Option Binding := none
  kind : Option (Option String) := none
  isSensitive : Option Bool := none

/-- The record of an argument. -/
def argumentShape : Shape ArgumentDraft Argument where
  name := "Argument"
  fields := [
    ⟨"name", (·.name.isSome), fun _ d => return { d with name := some (← text) }⟩,
    ⟨"type", (·.type.isSome), fun depth d =>
      return { d with type := some (← word CoreType.named depth) }⟩,
    ⟨"isNotNull", (·.isNotNull.isSome), fun depth d =>
      return { d with isNotNull := some (← flag depth) }⟩,
    ⟨"binding", (·.binding.isSome), fun depth d =>
      return { d with binding := some (← word Binding.named depth) }⟩,
    ⟨"kind", (·.kind.isSome), fun _ d => return { d with kind := some (← nullable text) }⟩,
    ⟨"isSensitive", (·.isSensitive.isSome), fun depth d =>
      return { d with isSensitive := some (← flag depth) }⟩]
  start := {}
  complete missing d := do
    let name ← required missing "name" d.name
    let type ← required missing "type" d.type
    let isNotNull ← required missing "isNotNull" d.isNotNull
    return {
      name, type, isNotNull
      binding := d.binding.getD .inOnly
      kind := d.kind.getD none
      isSensitive := d.isSensitive.getD false }

/-- The fields of a column read so far. -/
structure ColumnDraft where
  name : Option String := none
  type : Option CoreType := none
  isNotNull : Option Bool := none
  kind : Option (Option String) := none
  isSensitive : Option Bool := none

/-- The record of a column. -/
def columnShape : Shape ColumnDraft Column where
  name := "Column"
  fields := [
    ⟨"name", (·.name.isSome), fun _ d => return { d with name := some (← text) }⟩,
    ⟨"type", (·.type.isSome), fun depth d =>
      return { d with type := some (← word CoreType.named depth) }⟩,
    ⟨"isNotNull", (·.isNotNull.isSome), fun depth d =>
      return { d with isNotNull := some (← flag depth) }⟩,
    ⟨"kind", (·.kind.isSome), fun _ d => return { d with kind := some (← nullable text) }⟩,
    ⟨"isSensitive", (·.isSensitive.isSome), fun depth d =>
      return { d with isSensitive := some (← flag depth) }⟩]
  start := {}
  complete missing d := do
    let name ← required missing "name" d.name
    let type ← required missing "type" d.type
    let isNotNull ← required missing "isNotNull" d.isNotNull
    return {
      name, type, isNotNull
      kind := d.kind.getD none
      isSensitive := d.isSensitive.getD false }

/-- The fields of an attribute read so far. -/
structure AttributeDraft where
  name : Option String := none
  value : Option Json.Value := none

/-- The record of an attribute. -/
def attributeShape : Shape AttributeDraft Attribute where
  name := "Attribute"
  fields := [
    ⟨"name", (·.name.isSome), fun _ d => return { d with name := some (← text) }⟩,
    ⟨"value", (·.value.isSome), fun depth d =>
      return { d with value := some (← Decoder.value depth) }⟩]
  start := {}
  complete missing d := do
    let name ← required missing "name" d.name
    return { name, value := d.value.getD .null }

/-- The fields of a procedure read so far. -/
structure ProcedureDraft where
  name : Option String := none
  args : Option (List Argument) := none
  projection : Option (Option (List Column)) := none
  attributes : Option (List Attribute) := none
  usesDatabase : Option Bool := none
  hasOutResult : Option Bool := none

/-- The record of a procedure. -/
def procedureShape : Shape ProcedureDraft Procedure where
  name := "Procedure"
  fields := [
    ⟨"name", (·.name.isSome), fun _ d => return { d with name := some (← text) }⟩,
    ⟨"args", (·.args.isSome), fun depth d =>
      return { d with args := some (← list (record argumentShape) depth) }⟩,
    ⟨"projection", (·.projection.isSome), fun depth d =>
      return { d with projection := some (← nullable (list (record columnShape) depth)) }⟩,
    ⟨"attributes", (·.attributes.isSome), fun depth d =>
      return { d with attributes := some (← list (record attributeShape) depth) }⟩,
    ⟨"usesDatabase", (·.usesDatabase.isSome), fun depth d =>
      return { d with usesDatabase := some (← flag depth) }⟩,
    ⟨"hasOutResult", (·.hasOutResult.isSome), fun depth d =>
      return { d with hasOutResult := some (← flag depth) }⟩]
  start := {}
  complete missing d := do
    let name ← required missing "name" d.name
    return {
      name
      args := d.args.getD []
      projection := d.projection.getD none
      attributes := d.attributes.getD []
      declaredUsesDatabase := d.usesDatabase
      hasOutResult := d.hasOutResult.getD false }

/-- The sections of a schema read so far. -/
structure SchemaDraft where
  queries : Option (List Procedure) := none
  deletes : Option (List Procedure) := none
  inserts : Option (List Procedure) := none
  generalInserts : Option (List Procedure) := none
  updates : Option (List Procedure) := none
  general : Option (List Procedure) := none

/-- The record of a schema. -/
def schemaShape : Shape SchemaDraft Schema where
  name := "Schema"
  fields := [
    ⟨"queries", (·.queries.isSome), fun depth d =>
      return { d with queries := some (← procedureList depth) }⟩,
    ⟨"deletes", (·.deletes.isSome), fun depth d =>
      return { d with deletes := some (← procedureList depth) }⟩,
    ⟨"inserts", (·.inserts.isSome), fun depth d =>
      return { d with inserts := some (← procedureList depth) }⟩,
    ⟨"generalInserts", (·.generalInserts.isSome), fun depth d =>
      return { d with generalInserts := some (← procedureList depth) }⟩,
    ⟨"updates", (·.updates.isSome), fun depth d =>
      return { d with updates := some (← procedureList depth) }⟩,
    ⟨"general", (·.general.isSome), fun depth d =>
      return { d with general := some (← procedureList depth) }⟩]
  start := {}
  complete _ d := return {
    queries := d.queries.getD []
    deletes := d.deletes.getD []
    inserts := d.inserts.getD []
    generalInserts := d.generalInserts.getD []
    updates := d.updates.getD []
    general := d.general.getD [] }
where
  /-- The procedures of a section. -/
  procedureList (depth : Nat) : Decoder (List Procedure) := list (record procedureShape) depth

/-- Why a schema cannot be read. -/
structure SchemaError where
  /-- The path the schema was read from. -/
  path : String
  fault : Fault

/-- The wording of a failure. -/
def SchemaError.message (e : SchemaError) : String :=
  "invalid CQL schema " ++ e.path ++ ": " ++ e.fault.message

/-- Reads a schema; the path appears in faults only. -/
def Schema.parse (text path : String) : Except SchemaError Schema :=
  (decode (record schemaShape) text).mapError fun f => ⟨path, f⟩

end CqlGlue
