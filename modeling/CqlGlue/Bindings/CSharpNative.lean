import CqlGlue.Bindings.Banner
import CqlGlue.Bindings.NativeEntry

/-!
# The C side of the C# bindings

The C functions that the managed wrapper class imports. A value that may be null crosses the
boundary as two parameters, whether it is there and what it is.

## Main definitions
* `params` are the parameters of an entry point.
* `marshal` turns a parameter into what the procedure takes.
* `entryPoint` is the function for one procedure, `text` the whole file.
-/

namespace CqlGlue.CSharpNative

open Code

/-- What a generated file depends on apart from the schema. -/
structure Options where
  /-- The managed class, with whose name every entry point begins. -/
  className : String
  /-- The header that declares the procedures. -/
  cqlHeader : String

/-- The header of the procedures when none is named. -/
def defaultHeader : String := "something.h"

/-- The types of values that may be null. -/
def baseTypes : String :=
  let nullable (name value : String) : String :=
    "typedef struct " ++ name ++ " \x7b\n" ++
    "  unsigned int hasValue;\n" ++
    "  " ++ value ++ " value;\n" ++
    "\x7d " ++ name ++ ";\n"
  nullable "nullable_bool" "unsigned int" ++ nullable "nullable_int" "cql_int32" ++
    nullable "nullable_long" "cql_int64" ++ nullable "nullable_real" "double"

/-- The type of a parameter. -/
def paramType (type : CoreType) (notNull : Bool) : String :=
  match type with
  | .object => if notNull then "void*" else "void *"
  | .blob => "const void *"
  | .text => "const char *"
  | t => t.cType

/-- The parameters for one argument. -/
def paramsOf (a : Argument) : List Param :=
  if a.isNullableValue then
    [.plain "bool" (a.name ++ "_has_value"), .plain (paramType a.type true) (a.name ++ "_value")]
  else [.plain (paramType a.type a.isNotNull) a.name]

/-- The parameters of an entry point: the database and the arguments the caller supplies. -/
def params (p : Procedure) : List Param :=
  (if p.usesDatabase then [.plain "cql_int64" "__db"] else []) ++ p.inArgs.flatMap paramsOf

/-- The comment before a passed argument. -/
def remark (a : Argument) : String := " /*" ++ a.binding.name ++ "*/ "

/-- What an argument needs. An argument that is only written goes straight into the row; one
that is read and written is copied there after the call. -/
def marshal (a : Argument) : Marshalled :=
  let x := a.name
  let cell : Expr := .member "row" x
  let inOut := a.binding == .inOut
  let copied (s : Stmt) : List Stmt := if inOut then [s] else []
  let passed (operand : Operand) : CallArg := ⟨remark a, inOut, operand⟩
  if a.binding == .outOnly then ⟨[], ⟨remark a, true, .value cell⟩, []⟩
  else
    match a.type with
    | .text =>
      let ref : Expr := .name ("str_ref_" ++ x)
      ⟨[.define "cql_string_ref" ("str_ref_" ++ x) (.name "NULL"),
          .block (.name x) [.assign ref (.call "cql_string_ref_new" [.name x])]],
        passed (.value ref),
        copied (.perform (.call "cql_set_string_ref" [.address cell, ref])) ++
          [.perform (.call "cql_string_release" [ref])]⟩
    | .blob =>
      let ref : Expr := .name ("blob_ref_" ++ x)
      ⟨[.define "cql_blob_ref" ("blob_ref_" ++ x) (.name "NULL"),
          .block (.name x)
            [.definePointer "void" ("bytes_" ++ x) (.name "\"xx\""),
              .define "int" ("len_" ++ x) (.name "2"),
              .assign ref
                (.call "cql_blob_ref_new" [.name ("bytes_" ++ x), .name ("len_" ++ x)])]],
        passed (.value ref),
        copied (.perform (.call "cql_set_blob_ref" [.address cell, ref])) ++
          [.perform (.call "cql_blob_release" [ref])]⟩
    | .object =>
      ⟨[],
        passed (.unsupported (" /* unsupported arg type:'object' isNotNull:" ++
          (if a.isNotNull then "1" else "0") ++ " kind:'" ++ a.kind.getD "" ++ "' */")),
        []⟩
    | t =>
      if a.isNotNull then ⟨[], passed (.value (.name x)), copied (.assign cell (.name x))⟩
      else
        let value : Expr := .name ("n_" ++ x)
        ⟨[.reserve t.nullableCType ("n_" ++ x),
            .perform (.call "cql_set_nullable"
              [value, .negation (.name (x ++ "_has_value")), .name (x ++ "_value")])],
          passed (.value value), copied (.assign cell value)⟩

/-- How entry points are written. -/
def style : NativeStyle where
  resultSet := "_data_result_set_"
  outputs := "outputs_result_set"
  handle := "cql_int64"
  takeover := "// the row takes over the result set reference."
  notes := []
  encodesContext := false
  marshal := marshal

/-- The symbol of an entry point. -/
def symbol (o : Options) (p : Procedure) : String := o.className ++ "_" ++ p.name

/-- The entry point of a procedure. -/
def entryPoint (o : Options) (p : Procedure) : Function :=
  ⟨style.resultType p ++ " ", symbol o p, params p, style.body p⟩

/-- The entry points of a schema, in order. -/
def entryPoints (o : Options) (s : Schema) : List Function := s.wrapped.map (entryPoint o)

/-- The C file for a schema. -/
def text (o : Options) (s : Schema) : String :=
  Banner.licenseComment ++ "\n" ++
  "#include \"cqlrt.h\"\n" ++
  "#include \"" ++ o.cqlHeader ++ "\"\n\n" ++
  baseTypes ++
  String.join (s.wrapped.map fun p => NativeStyle.text p (entryPoint o p))

end CqlGlue.CSharpNative
