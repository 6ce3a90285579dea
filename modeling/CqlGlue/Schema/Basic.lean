import CqlGlue.Json.Value

/-!
# Schemas

What the CQL compiler tells about the procedures it compiled: their arguments, the columns of
their result sets, and attributes of any value. A schema lists its procedures in six sections.

## Main definitions
* `CoreType`, `Binding`, `Argument`, `Column`, `Attribute`, `Procedure` and `Schema`.
* `Procedure.inArgs` and `Procedure.outArgs` are the arguments by direction.
* `Procedure.isSuppressed` and `Procedure.isVaulted` read attributes.
-/

namespace CqlGlue

/-- The core data types. -/
inductive CoreType where
  | bool
  | integer
  | long
  | real
  | object
  | blob
  | text
  deriving DecidableEq, Repr

namespace CoreType

/-- The name of a type. -/
def name : CoreType → String
  | bool => "bool"
  | integer => "integer"
  | long => "long"
  | real => "real"
  | object => "object"
  | blob => "blob"
  | text => "text"

/-- All types with their names. -/
def named : List (String × CoreType) :=
  [bool, integer, long, real, object, blob, text].map fun t => (t.name, t)

/-- Types whose values are counted references. -/
def isRef : CoreType → Bool
  | object | blob | text => true
  | _ => false

/-- The storage of a value in C. -/
def cType : CoreType → String
  | bool => "cql_bool"
  | integer => "cql_int32"
  | long => "cql_int64"
  | real => "cql_double"
  | object => "cql_object_ref"
  | blob => "cql_blob_ref"
  | text => "cql_string_ref"

/-- The storage of a value that may be null. References have a null of their own. -/
def nullableCType : CoreType → String
  | bool => "cql_nullable_bool"
  | integer => "cql_nullable_int32"
  | long => "cql_nullable_int64"
  | real => "cql_nullable_double"
  | t => t.cType

/-- The storage of a value, by whether it may be null. -/
def storage (t : CoreType) (notNull : Bool) : String := if notNull then t.cType else t.nullableCType

/-- The code of a type in tables of the runtime. -/
def dataType : CoreType → String
  | bool => "CQL_DATA_TYPE_BOOL"
  | integer => "CQL_DATA_TYPE_INT32"
  | long => "CQL_DATA_TYPE_INT64"
  | real => "CQL_DATA_TYPE_DOUBLE"
  | object => "CQL_DATA_TYPE_OBJECT"
  | blob => "CQL_DATA_TYPE_BLOB"
  | text => "CQL_DATA_TYPE_STRING"

end CoreType

/-- The direction of an argument. -/
inductive Binding where
  | inOnly
  | outOnly
  | inOut
  deriving DecidableEq, Repr

namespace Binding

/-- The name of a direction. -/
def name : Binding → String
  | inOnly => "in"
  | outOnly => "out"
  | inOut => "inout"

/-- All directions with their names. -/
def named : List (String × Binding) := [inOnly, outOnly, inOut].map fun b => (b.name, b)

/-- Whether the caller supplies a value. -/
def isInput : Binding → Bool
  | outOnly => false
  | _ => true

/-- Whether the procedure writes a value back. -/
def isOutput : Binding → Bool
  | inOnly => false
  | _ => true

end Binding

/-- What the kind of an object ends with when the object is the result set of a procedure. -/
def setSuffix : String := " SET"

/-- The procedure that the kind of an object names as the source of a result set. -/
def resultSetOfKind? (kind : String) : Option String :=
  let cs := kind.toList
  let suffix := setSuffix.toList
  if suffix.isSuffixOf cs then some (String.ofList (cs.take (cs.length - suffix.length))) else none

/-- A parameter of a procedure. -/
structure Argument where
  name : String
  type : CoreType
  isNotNull : Bool
  binding : Binding
  /-- The kind of an object. -/
  kind : Option String
  isSensitive : Bool
  deriving DecidableEq, Repr

namespace Argument

/-- The storage of an argument in C. -/
def storage (a : Argument) : String := a.type.storage a.isNotNull

/-- The procedure whose result set an object argument is. -/
def resultSetKind (a : Argument) : Option String :=
  match a.type with
  | .object => a.kind.bind resultSetOfKind?
  | _ => none

/-- Whether an argument is a value and not a reference, and may be null. -/
def isNullableValue (a : Argument) : Bool := !a.isNotNull && !a.type.isRef

end Argument

/-- A column of a result set. -/
structure Column where
  name : String
  type : CoreType
  isNotNull : Bool
  kind : Option String
  isSensitive : Bool
  deriving DecidableEq, Repr

/-- A named value attached to a procedure. -/
structure Attribute where
  name : String
  value : Json.Value

/-- A compiled procedure. -/
structure Procedure where
  name : String
  args : List Argument
  /-- The columns of the result set, where the procedure has one. -/
  projection : Option (List Column)
  attributes : List Attribute
  /-- Whether the schema says that the procedure uses a database, and what it says. -/
  declaredUsesDatabase : Option Bool
  /-- Whether the result set is a single row. -/
  hasOutResult : Bool

namespace Procedure

/-- Whether the procedure uses a database; where the schema does not say, it does. -/
def usesDatabase (p : Procedure) : Bool := p.declaredUsesDatabase.getD true

/-- The value of the first attribute of a name. -/
def attributeValue? (p : Procedure) (name : String) : Option Json.Value :=
  (p.attributes.find? (·.name == name)).map Attribute.value

/-- Whether there is an attribute of a name. -/
def hasAttribute (p : Procedure) (name : String) : Bool := (p.attributeValue? name).isSome

/-- Whether the procedure is private. -/
def isPrivate (p : Procedure) : Bool := p.hasAttribute "cql:private"

/-- Whether the procedure gets no wrappers: it is private, or its result set or the accessors
of it are suppressed. -/
def isSuppressed (p : Procedure) : Bool :=
  p.isPrivate || p.hasAttribute "cql:suppress_result_set" || p.hasAttribute "cql:suppress_getters"

/-- Whether the result set has columns that identify its rows. -/
def hasIdentityColumns (p : Procedure) : Bool := p.hasAttribute "cql:identity"

/-- Whether the procedure produces a result set. -/
def hasProjection (p : Procedure) : Bool := p.projection.isSome

/-- The columns of the result set. -/
def columns (p : Procedure) : List Column := p.projection.getD []

/-- The arguments the caller supplies. -/
def inArgs (p : Procedure) : List Argument := p.args.filter (·.binding.isInput)

/-- The arguments the procedure writes back. -/
def outArgs (p : Procedure) : List Argument := p.args.filter (·.binding.isOutput)

/-- Whether the procedure writes any argument back. -/
def hasOutArgs (p : Procedure) : Bool := !p.outArgs.isEmpty

/-- Whether a call gives anything back: a result code, arguments or a result set. -/
def hasResults (p : Procedure) : Bool := p.usesDatabase || p.hasOutArgs || p.hasProjection

/-- Whether a column is stored encoded. Only sensitive columns are: all of them, or those of a
list of names. -/
def isVaulted (p : Procedure) (c : Column) : Bool :=
  c.isSensitive &&
    match p.attributeValue? "cql:vault_sensitive" with
    | some (.array names) => names.any fun n => n.asText? == some c.name
    | some (.bool all) => all
    | some v => v.asInteger? == some 1
    | none => false

end Procedure

/-- The procedures of a schema by section. -/
structure Schema where
  queries : List Procedure
  deletes : List Procedure
  inserts : List Procedure
  generalInserts : List Procedure
  updates : List Procedure
  general : List Procedure

namespace Schema

/-- All procedures, section by section. -/
def procedures (s : Schema) : List Procedure :=
  s.queries ++ s.deletes ++ s.inserts ++ s.generalInserts ++ s.updates ++ s.general

/-- The procedures that get wrappers. -/
def wrapped (s : Schema) : List Procedure := s.procedures.filter (!·.isSuppressed)

/-- The procedures that get none. -/
def suppressed (s : Schema) : List Procedure := s.procedures.filter (·.isSuppressed)

end Schema

end CqlGlue
