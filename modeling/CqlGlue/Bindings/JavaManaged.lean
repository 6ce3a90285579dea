import CqlGlue.Bindings.Banner
import CqlGlue.Bindings.ManagedClass

/-!
# The managed side of the Java bindings

One class that holds, for each procedure, a view of its result set, a view of all that a call
gives back, and an entry point. A procedure that gives something back has a wrapper over a
native method; of any other the native method is the entry point.

## Main definitions
* `viewModel?` and `results` are the views.
* `NativeMethod` is a native declaration, `EntryPoint` one with its wrapper.
* `text` is the whole file.
-/

namespace CqlGlue.JavaManaged

/-- The type of a value. A value that may be null is boxed. -/
def typeName (type : CoreType) (notNull : Bool) : String :=
  match type with
  | .bool => if notNull then "boolean" else "Boolean"
  | .integer => if notNull then "int" else "Integer"
  | .long => if notNull then "long" else "Long"
  | .real => if notNull then "double" else "Double"
  | .object => "Object"
  | .blob => "byte[]"
  | .text => "String"

/-! ## Views -/

/-- The class of the rows of a procedure. -/
def viewModelName (p : Procedure) : String := p.name ++ "ViewModel"

/-- The class of what a procedure gives back. -/
def resultsName (p : Procedure) : String := p.name ++ "Results"

/-- The type of a cell. Objects are read as result sets. -/
def cellType (type : CoreType) (notNull : Bool) : String :=
  match type with
  | .object => "CQLResultSet"
  | t => typeName t notNull

/-- The member that answers whether rows have an identity. -/
def identityMember (answer : Bool) : ManagedMember :=
  ⟨["@Override"], "protected boolean", "hasIdentityColumns", .method [],
    .constant (if answer then "true" else "false")⟩

/-- The member that answers the number of rows. -/
def countMember (reading : Reading) : ManagedMember := .method "int" "getCount" [] reading

/-- The readers of one column. Texts that are stored encoded have a type of their own, and
every encoded column has a member that tells whether it is. -/
def columnMembers (p : Procedure) (c : Column) (index : Nat) : List ManagedMember :=
  let encoded := p.isVaulted c
  let isEncodedText := encoded && c.type == .text
  let type := if isEncodedText then "EncodedString" else cellType c.type c.isNotNull
  let accessor := if isEncodedText then "getEncodedString" else c.type.accessor c.isNotNull
  [.method type ("get_" ++ c.name) [⟨"int", "row"⟩] (.cell accessor "row" index)] ++
  if encoded then
    [.method "boolean" ("get_" ++ c.name ++ "_IsEncoded") [] (.isEncoded index)]
  else []

/-- The view of the result set, where there is one. -/
def viewModel? (p : Procedure) : Option ManagedClass :=
  if p.hasProjection then
    some ⟨viewModelName p,
      p.columns.zipIdx.flatMap (fun c => columnMembers p c.1 c.2) ++
        [identityMember p.hasIdentityColumns, countMember .rowCount]⟩
  else none

/-- The readers of the arguments, the result code and the result set in the return row. -/
def outputMembers (p : Procedure) : List ManagedMember :=
  p.outArgs.zipIdx.map (fun a =>
    .method (cellType a.1.type a.1.isNotNull) ("get_" ++ a.1.name) []
      (.cell (a.1.type.accessor a.1.isNotNull) "0" a.2)) ++
  (if p.usesDatabase then
    [.method "int" "get_result_code" [] (.cell "getInteger" "0" p.outArgs.length)]
  else []) ++
  (if p.hasProjection then
    [.method (viewModelName p) "get_result_set" []
      (.child (viewModelName p) (p.outArgs.length + if p.usesDatabase then 1 else 0))]
  else [])

/-- The view of the return row. -/
def results (p : Procedure) : ManagedClass :=
  ⟨resultsName p, outputMembers p ++ [countMember (.constant "1"), identityMember false]⟩

/-- The text of a view. -/
def classText (c : ManagedClass) : String :=
  "  static public final class " ++ c.name ++ " extends CQLViewModel \x7b\n" ++
  "    public " ++ c.name ++ "(CQLResultSet resultSet) \x7b\n" ++
  "       super(resultSet);\n" ++
  "    \x7d\n\n" ++
  c.membersText ++ "  \x7d\n\n"

/-! ## Entry points -/

/-- A method implemented on the C side. -/
structure NativeMethod where
  result : String
  name : String
  params : List ManagedParam
  deriving DecidableEq, Repr

/-- The text of a native declaration. -/
def NativeMethod.text (m : NativeMethod) : String :=
  "  public static native " ++ m.result ++ " " ++ m.name ++ "(" ++
    ManagedParam.list m.params ++ ");\n"

/-- The parameters of an entry point: the database and the arguments the caller supplies. -/
def params (p : Procedure) : List ManagedParam :=
  (if p.usesDatabase then [⟨"long", "__db"⟩] else []) ++
    p.inArgs.map fun a => ⟨typeName a.type a.isNotNull, a.name⟩

/-- The native method of a procedure. -/
def nativeMethod (p : Procedure) : NativeMethod :=
  if p.hasResults then ⟨"long", p.name ++ "JNI", params p⟩ else ⟨"void", p.name, params p⟩

/-- The native methods of a schema, in order. -/
def nativeMethods (s : Schema) : List NativeMethod := s.wrapped.map nativeMethod

/-- The wrapper over a native method that gives something back. -/
def wrapperText (p : Procedure) : String :=
  "  public static " ++ resultsName p ++ " " ++ p.name ++ "(" ++
    ManagedParam.list (params p) ++ ") \x7b\n" ++
  "     return new " ++ resultsName p ++ "(new CQLResultSet(" ++ (nativeMethod p).name ++ "(" ++
    String.intercalate ", " ((params p).map (·.name)) ++ ")));\n" ++
  "  \x7d\n\n"

/-- The text of the entry point of a procedure. -/
def entryPointText (p : Procedure) : String :=
  "  // procedure entry point " ++ p.name ++ "\n" ++
  (if p.hasResults then wrapperText p else "") ++ (nativeMethod p).text ++ "\n"

/-! ## The file -/

/-- All that the wrapper class holds for one procedure. -/
def procedureText (p : Procedure) : String :=
  (match viewModel? p with
  | some c => classText c
  | none => "") ++ classText (results p) ++ entryPointText p

/-- The managed file for a schema. -/
def text (package className : String) (s : Schema) : String :=
  Banner.licenseComment ++
  "package " ++ package ++ ";\n\n\n" ++
  "import com.acme.cgsql.CQLResultSet;\n\n" ++
  "import com.acme.cgsql.CQLViewModel;\n\n" ++
  "import com.acme.cgsql.EncodedString;\n\n" ++
  "public class " ++ className ++ "\n" ++
  "\x7b\n" ++
  "  static \x7b\n" ++
  "    System.loadLibrary(\"" ++ className ++ "\");\n" ++
  "  \x7d\n\n" ++
  String.join (s.wrapped.map procedureText) ++
  "\x7d\n"

end CqlGlue.JavaManaged
