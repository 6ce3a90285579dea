import CqlGlue.Bindings.Banner
import CqlGlue.Bindings.ManagedClass

/-!
# The managed side of the C# bindings

One class that holds, for each procedure, a view of its result set, a view of all that a call
gives back, and an entry point over a function imported from the C side.

## Main definitions
* `viewModel?` and `returnType` are the views.
* `Import` is an imported function, `EntryPoint` a wrapper over one.
* `text` is the whole file.
-/

namespace CqlGlue.CSharpManaged

/-- The type of a value. -/
def typeName (type : CoreType) (notNull : Bool) : String :=
  (match type with
  | .bool => "bool"
  | .integer => "int"
  | .long => "long"
  | .real => "double"
  | .object => "object"
  | .blob => "byte[]"
  | .text => "string") ++ if notNull then "" else "?"

/-! ## Views -/

/-- The class of the rows of a procedure. -/
def viewModelName (p : Procedure) : String := p.name ++ "ViewModel"

/-- The class of what a procedure gives back. -/
def returnTypeName (p : Procedure) : String := p.name ++ "ReturnType"

/-- The type of a column. Only values are marked where they may be null. -/
def columnType (c : Column) : String :=
  (match c.type with
  | .object => "CQLResultSet"
  | t => typeName t true) ++ if !c.isNotNull && !c.type.isRef then "?" else ""

/-- The type of an argument given back. -/
def outputType (a : Argument) : String :=
  match a.type with
  | .object => "CQLResultSet"
  | t => typeName t a.isNotNull

/-- The member that answers whether rows have an identity. -/
def identityMember (answer : Bool) : ManagedMember :=
  ⟨[], "override protected bool", "hasIdentityColumns", .method [],
    .constant (if answer then "true" else "false")⟩

/-- The member that answers the number of rows. -/
def countMember (reading : Reading) : ManagedMember :=
  ⟨[], "public int", "Count", .property 7, reading⟩

/-- The reader of one column. A result set of a single row is read without a row. -/
def columnMember (p : Procedure) (c : Column) (index : Nat) : ManagedMember :=
  if p.hasOutResult then
    .method (columnType c) ("get_" ++ c.name) [] (.cell (c.type.accessor c.isNotNull) "0" index)
  else
    .method (columnType c) ("get_" ++ c.name) [⟨"int", "row"⟩]
      (.cell (c.type.accessor c.isNotNull) "row" index)

/-- The view of the result set, where there is one. -/
def viewModel? (p : Procedure) : Option ManagedClass :=
  if p.hasProjection then
    some ⟨viewModelName p,
      p.columns.zipIdx.map (fun c => columnMember p c.1 c.2) ++
        [identityMember p.hasIdentityColumns, countMember .rowCount]⟩
  else none

/-- The readers of the arguments, the result code and the result set in the return row. -/
def outputMembers (p : Procedure) : List ManagedMember :=
  p.outArgs.zipIdx.map (fun a =>
    .property (outputType a.1) a.1.name (.cell (a.1.type.accessor a.1.isNotNull) "0" a.2)) ++
  (if p.usesDatabase then
    [.property "int" "result_code" (.cell "getInteger" "0" p.outArgs.length)]
  else []) ++
  (if p.hasProjection then
    [.property (viewModelName p) "result_set"
      (.child (viewModelName p) (p.outArgs.length + if p.usesDatabase then 1 else 0))]
  else [])

/-- The view of the return row. -/
def returnType (p : Procedure) : ManagedClass :=
  ⟨returnTypeName p,
    outputMembers p ++ [countMember (.constant "1"), identityMember false]⟩

/-- The beginning of a class, with its constructor. -/
def classOpening (name : String) : String :=
  "  public sealed class " ++ name ++ " : CQLViewModel \x7b\n" ++
  "    public " ++ name ++ "(CQLResultSet resultSet) : base(resultSet) \x7b\n" ++
  "    \x7d\n\n"

/-- The text of the view of a result set. -/
def viewModelText (c : ManagedClass) : String :=
  classOpening c.name ++ c.membersText ++ "\n  \x7d\n\n"

/-- The text of the view of a return row. -/
def returnTypeText (c : ManagedClass) : String :=
  classOpening c.name ++ c.membersText ++ "  \x7d\n\n"

/-! ## Entry points -/

/-- A function imported from the C side. -/
structure Import where
  result : String
  symbol : String
  params : List ManagedParam
  deriving DecidableEq, Repr

/-- A wrapper over an imported function. -/
structure EntryPoint where
  name : String
  params : List ManagedParam
  /-- The view of what is given back, where anything is. -/
  view : Option String
  /-- The expressions passed to the imported function. -/
  passed : List String
  imported : Import
  deriving DecidableEq, Repr

/-- The parameters of the wrapper. -/
def params (p : Procedure) : List ManagedParam :=
  (if p.usesDatabase then [⟨"long", "__db"⟩] else []) ++
    p.inArgs.map fun a => ⟨typeName a.type a.isNotNull, a.name⟩

/-- The parameters of the imported function for one argument: a value that may be null crosses
the boundary as whether it is there and what it is. -/
def importedParams (a : Argument) : List ManagedParam :=
  if a.isNullableValue then
    [⟨"bool", a.name ++ "_has_value"⟩, ⟨typeName a.type true, a.name ++ "_value"⟩]
  else [⟨typeName a.type a.isNotNull, a.name⟩]

/-- What the wrapper passes for one argument. -/
def passedFor (a : Argument) : List String :=
  if a.isNullableValue then [a.name ++ ".HasValue", a.name ++ ".GetValueOrDefault()"]
  else [a.name]

/-- The entry point of a procedure. -/
def entryPoint (className : String) (p : Procedure) : EntryPoint where
  name := p.name
  params := params p
  view := if p.hasResults then some (returnTypeName p) else none
  passed := (if p.usesDatabase then ["__db"] else []) ++ p.inArgs.flatMap passedFor
  imported :=
    ⟨if p.hasResults then "long" else "void", className ++ "_" ++ p.name,
      (if p.usesDatabase then [⟨"long", "__db"⟩] else []) ++ p.inArgs.flatMap importedParams⟩

/-- The entry points of a schema, in order. -/
def entryPoints (className : String) (s : Schema) : List EntryPoint :=
  s.wrapped.map (entryPoint className)

/-- The call of the imported function. -/
def EntryPoint.call (e : EntryPoint) : String :=
  e.imported.symbol ++ "(" ++ String.intercalate ", " e.passed ++ ")"

/-- The text of an entry point and of the import behind it. -/
def EntryPoint.text (e : EntryPoint) : String :=
  "  // procedure entry point " ++ e.name ++ "\n" ++
  (match e.view with
  | some view =>
    "  public static " ++ view ++ " " ++ e.name ++ "(" ++ ManagedParam.list e.params ++ ") \x7b\n" ++
    "     return new " ++ view ++ "(new CQLResultSet(" ++ e.call ++ "));\n"
  | none =>
    "  public static void " ++ e.name ++ "(" ++ ManagedParam.list e.params ++ ") \x7b\n" ++
    "     " ++ e.call ++ ";\n") ++
  "  \x7d\n\n" ++
  "  [DllImport(@\"cql_interop.dll\")]\n" ++
  "  public static extern " ++ e.imported.result ++ " " ++ e.imported.symbol ++ "(" ++
    ManagedParam.list e.imported.params ++ ");\n\n"

/-! ## The file -/

/-- All that the wrapper class holds for one procedure. -/
def procedureText (className : String) (p : Procedure) : String :=
  (match viewModel? p with
  | some c => viewModelText c
  | none => "") ++ returnTypeText (returnType p) ++ (entryPoint className p).text

/-- The managed file for a schema. -/
def text (className : String) (s : Schema) : String :=
  Banner.licenseComment ++
  "using System;\n" ++
  "using System.Runtime.InteropServices;\n" ++
  "using System.Text;\n" ++
  "using CGSQL;\n\n" ++
  "public class " ++ className ++ "\n" ++
  "\x7b\n\n" ++
  String.join (s.wrapped.map (procedureText className)) ++
  "\x7d\n"

end CqlGlue.CSharpManaged
