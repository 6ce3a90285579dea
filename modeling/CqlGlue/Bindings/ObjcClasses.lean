import CqlGlue.Bindings.Banner
import CqlGlue.Bindings.NativeEntry
import CqlGlue.Bindings.ObjcClass

/-!
# Objective-C bindings

For each procedure a class of its result set, a class of what a call gives back, and a function
that calls it. A header declares them, an implementation file defines them.

## Main definitions
* `resultSetInterface?`, `returnInterface?` and `entryPoint` declare.
* `resultSetImplementation?`, `returnImplementation?` and `function` define.
* `headerText` and `implementationText` are the two files.
-/

namespace CqlGlue.ObjcClasses

open Code ObjcClass

/-! ## Types -/

/-- The class of the result set of a procedure. -/
def resultSetClass (name : String) : String := "CGS" ++ name ++ "RS"

/-- The class of what a call of a procedure gives back. -/
def returnClass (p : Procedure) : String := "CGS" ++ p.name ++ "RT"

/-- The C reference to the result set of a procedure. -/
def refType (p : Procedure) : String := p.name ++ "_result_set_ref"

/-- The mark of a pointer, by whether it may be null. -/
def nullability (notNull : Bool) : String := if notNull then "_Nonnull" else "_Nullable"

/-- The type of a value. A value that may be null is boxed. -/
def valueType (type : CoreType) (notNull : Bool) : String :=
  match type with
  | .object => "NSObject *" ++ nullability notNull
  | .blob => "NSData *" ++ nullability notNull
  | .text => "NSString *" ++ nullability notNull
  | .bool => if notNull then "cql_bool" else "NSNumber *_Nullable"
  | .integer => if notNull then "cql_int32" else "NSNumber *_Nullable"
  | .long => if notNull then "cql_int64" else "NSNumber *_Nullable"
  | .real => if notNull then "cql_double" else "NSNumber *_Nullable"

/-- The type of a value whose kind is known: a result set has the class of the procedure it
comes from. -/
def kindedType (type : CoreType) (kind : Option String) (notNull : Bool) : String :=
  match type, kind.bind resultSetOfKind? with
  | .object, some procedure => resultSetClass procedure ++ " *" ++ nullability notNull
  | t, _ => valueType t notNull

/-- The type of an argument given back. -/
def outputType (a : Argument) : String := kindedType a.type a.kind a.isNotNull

/-- The type of a column. -/
def columnType (c : Column) : String := kindedType c.type c.kind c.isNotNull

/-- Whether a call gives back an object. -/
def hasReturn (p : Procedure) : Bool := p.hasOutArgs || p.hasProjection

/-! ## Interfaces -/

/-- What a result set promises of a column. A single row is read by properties. -/
def columnPromise (p : Procedure) (c : Column) : Promise :=
  if p.hasOutResult then .property "readonly" (columnType c) c.name
  else .rowReader (columnType c) c.name

/-- The instance variable of a result set. -/
def resultSetIvars (p : Procedure) : List Ivar := [⟨refType p, "_resultSet"⟩]

/-- The interface of a result set. -/
def resultSetInterface (legacy : Bool) (p : Procedure) : Interface where
  name := resultSetClass p.name
  ivars := if legacy then some (resultSetIvars p) else none
  groups :=
    [p.columns.map (columnPromise p),
      [.property "assign" (refType p) "resultSet",
        .property "readonly" "cql_bool" "hasIdentityColumns", .property "readonly" "int" "count"]]

/-- The instance variables of what a call gives back. -/
def returnIvars (p : Procedure) : List Ivar :=
  p.outArgs.map (fun a => ⟨outputType a, "_" ++ a.name⟩) ++
  (if p.usesDatabase then [⟨"int", "_resultCode"⟩] else []) ++
  (if p.hasProjection then [⟨resultSetClass p.name ++ " *_Nullable", "_resultSet"⟩] else [])

/-- The property of an argument given back. Objects and boxed values are retained. -/
def outputPromise (a : Argument) : Promise :=
  .property (if a.type.isRef || !a.isNotNull then "retain" else "assign") (outputType a) a.name

/-- The interface of what a call gives back. -/
def returnInterface (legacy : Bool) (p : Procedure) : Interface where
  name := returnClass p
  ivars := if legacy then some (returnIvars p) else none
  groups :=
    (match p.outArgs with
    | [] => []
    | args => [args.map outputPromise]) ++
    (if p.usesDatabase then [[.property "assign" "int" "resultCode"]] else []) ++
    (if p.hasProjection then
      [[.property "retain" (resultSetClass p.name ++ " *_Nullable") "resultSet"]]
    else [])

/-- The interfaces for a procedure, in order. -/
def interfaces (legacy : Bool) (p : Procedure) : List Interface :=
  (if p.hasProjection then [resultSetInterface legacy p] else []) ++
  (if hasReturn p then [returnInterface legacy p] else [])

/-! ## Implementations -/

/-- The value of a column. A value that may be null is asked for null first. -/
def columnValue (p : Procedure) (c : Column) : Expr :=
  let reader := p.name ++ "_get_" ++ c.name
  let passed : List Expr :=
    .name "_resultSet" :: if p.hasOutResult then [] else [.name "row"]
  if c.type.isRef then .cast ("__bridge " ++ columnType c) (.call reader passed)
  else if !c.isNotNull then
    .choice (.call (reader ++ "_is_null") passed) (.name "nil")
      (.boxed (.call (reader ++ "_value") passed))
  else if c.type == .bool then .choice (.call reader passed) (.name "YES") (.name "NO")
  else .call reader passed

/-- The method that reads a column. -/
def columnMethod (p : Procedure) (c : Column) : Method :=
  ⟨columnType c, c.name, !p.hasOutResult, [.leave (some (columnValue p c))]⟩

/-- The implementation of a result set. -/
def resultSetImplementation (legacy : Bool) (p : Procedure) : Implementation where
  name := resultSetClass p.name
  namesSuper := legacy
  ivars := resultSetIvars p
  readers := p.columns.map (columnMethod p) ++
    [⟨"cql_bool", "hasIdentityColumns", false,
      [.leave (some (.name (if p.hasIdentityColumns then "YES" else "NO")))]⟩]
  upkeep :=
    [⟨"int", "count", false,
        [.leave (some (.call (p.name ++ "_result_count") [.name "_resultSet"]))]⟩,
      ⟨"void", "dealloc", false,
        [.perform (.call "cql_release" [.cast "cql_type_ref" (.property "self" "resultSet")])] ++
        if legacy then [.perform (.message (.name "super") "dealloc")] else []⟩]
  synthesized := [("resultSet", "_resultSet")]

/-- The implementation of what a call gives back. -/
def returnImplementation (legacy : Bool) (p : Procedure) : Implementation where
  name := returnClass p
  namesSuper := legacy
  ivars := returnIvars p
  readers := []
  upkeep := []
  synthesized :=
    p.outArgs.map (fun a => (a.name, "_" ++ a.name)) ++
    (if p.usesDatabase then [("resultCode", "_resultCode")] else []) ++
    (if p.hasProjection then [("resultSet", "_resultSet")] else [])

/-- The implementations for a procedure, in order. -/
def implementations (legacy : Bool) (p : Procedure) : List Implementation :=
  (if hasReturn p then [returnImplementation legacy p] else []) ++
  (if p.hasProjection then [resultSetImplementation legacy p] else [])

/-! ## Entry points -/

/-- What stands before the name of an entry point. -/
def entryResult (p : Procedure) : String :=
  if hasReturn p then returnClass p ++ " *_Nonnull "
  else if p.usesDatabase then "int "
  else "void "

/-- The name of an entry point. -/
def entryName (p : Procedure) : String :=
  if hasReturn p then "CGSCreate" ++ p.name ++ "RT" else "CGS" ++ p.name

/-- The parameters of an entry point: the database and the arguments the caller supplies. -/
def params (p : Procedure) : List Param :=
  (if p.usesDatabase then [.plain "sqlite3 *_Nonnull" "__db"] else []) ++
    p.inArgs.map fun a => .plain (valueType a.type a.isNotNull) a.name

/-- The class that a reference is bridged from. -/
def bridgedType : CoreType → String
  | .blob => "CFDataRef"
  | .text => "CFStringRef"
  | _ => "CFTypeRef"

/-- The message that reads a boxed value. -/
def unboxMessage : CoreType → String
  | .long => "longLongValue"
  | .real => "doubleValue"
  | _ => "intValue"

/-- The value in a box. Truth values are normalised. -/
def unboxed (a : Argument) : Expr :=
  let value : Expr := .message (.name a.name) (unboxMessage a.type)
  .cast a.type.cType (if a.type == .bool then .negation (.negation value) else value)

/-- The variable that stands for an argument in the call. Only a value that is supplied and
cannot be null needs none. -/
def temporary (a : Argument) : List Stmt :=
  let tmp := "tmp_" ++ a.name
  if a.binding == .outOnly || !a.isNotNull || a.type.isRef then
    if !a.type.isRef then [.reserve a.storage tmp]
    else if a.binding == .outOnly then [.define a.storage tmp (.name "NULL")]
    else [.define a.storage tmp (.cast ("__bridge " ++ bridgedType a.type) (.name a.name))]
  else []

/-- What an argument needs. What is given back is copied into the result after the call; an
object that only the procedure made is handed over. -/
def marshal (a : Argument) : Marshalled :=
  let tmp := "tmp_" ++ a.name
  let outOnly := a.binding == .outOnly
  let copied (value : Expr) : List Stmt :=
    if a.binding.isOutput then [.assign (.property "_result" a.name) value] else []
  let passed (operand : Operand) : CallArg :=
    ⟨"/*" ++ a.binding.name ++ "*/ ", a.binding.isOutput, operand⟩
  let bridged (type : String) : Expr :=
    .cast ("__bridge" ++ (if outOnly then "_transfer" else "") ++ " " ++ type) (.name tmp)
  match a.type with
  | .text => ⟨temporary a, passed (.value (.name tmp)), copied (bridged "NSString *")⟩
  | .blob => ⟨temporary a, passed (.value (.name tmp)), copied (bridged "NSData *")⟩
  | .object =>
    ⟨temporary a,
      passed (.unsupported (" /* unsupported arg type:'object' isNotNull:" ++
        (if a.isNotNull then "1" else "0") ++ " kind:'" ++ a.kind.getD "" ++
        "' */  error_unsupported_arg_type_" ++ a.name)),
      []⟩
  | _ =>
    if a.isNotNull then
      let value : Expr := .name (if outOnly then tmp else a.name)
      ⟨temporary a, passed (.value value), copied value⟩
    else
      ⟨temporary a ++
          (if outOnly then []
          else
            [.perform (.call "cql_set_nullable"
              [.name tmp, .negation (.name a.name), unboxed a])]),
        passed (.value (.name tmp)),
        copied (.choice (.property tmp "is_null") (.name "NULL")
          (.boxed (.property tmp "value")))⟩

/-- The call of the procedure. -/
def call (p : Procedure) : ProcCall :=
  .ofProcedure p
    ((if p.usesDatabase then [.name "__db"] else []) ++
      (if p.hasProjection then [.address (.name "_result_set_ref")] else []))
    (p.args.map fun a => (marshal a).passed) .stacked

/-- The variables of an entry point other than those of its arguments. -/
def locals (p : Procedure) : List Stmt :=
  (if p.usesDatabase then [.define "cql_code" "rc" (.name "SQLITE_OK")] else []) ++
  (if p.hasProjection then [.define (refType p) "_result_set_ref" (.name "NULL")] else []) ++
  (if hasReturn p then
    [.definePointer (returnClass p) "_result" (.message (.name (returnClass p)) "new")]
  else [])

/-- The end of an entry point: the result code and the result set go into the result. -/
def handover (p : Procedure) : List Stmt :=
  if hasReturn p then
    (if p.usesDatabase then [.assign (.property "_result" "resultCode") (.name "rc")] else []) ++
    (if p.hasProjection then
      let rs := resultSetClass p.name
      [.note ("// " ++ rs ++ " takes over result_set_ref, it knows to clean it up"),
        .definePointer rs "rs" (.message (.name rs) "new"),
        .assign (.property "rs" "resultSet") (.name "_result_set_ref"),
        .assign (.property "_result" "resultSet") (.name "rs")]
    else []) ++
    [.leave (some (.name "_result"))]
  else if p.usesDatabase then [.leave (some (.name "rc"))]
  else []

/-- The body of an entry point. -/
def body (p : Procedure) : List Stmt :=
  locals p ++ Stmt.setOff (p.args.flatMap fun a => (marshal a).before) ++
    [.call (call p), .blank] ++
    Stmt.setOff (p.args.flatMap fun a => (marshal a).after) ++ handover p

/-- The definition of an entry point. -/
def function (p : Procedure) : Function := ⟨entryResult p, entryName p, params p, body p⟩

/-- The declaration of a function, as a header has it. -/
structure Prototype where
  result : String
  symbol : String
  params : List Param
  deriving DecidableEq, Repr

/-- The text of a declaration. -/
def Prototype.text (f : Prototype) : String :=
  f.result ++ f.symbol ++ "(" ++ String.intercalate ", " (f.params.map Param.text) ++ ");\n"

/-- The declaration of an entry point. -/
def entryPoint (p : Procedure) : Prototype := ⟨entryResult p, entryName p, params p⟩

/-- The comment above an entry point. -/
def entryComment (p : Procedure) : String := "\n// procedure entry point " ++ p.name ++ "\n"

/-! ## The files -/

/-- What a generated file depends on apart from the schema. -/
structure Options where
  /-- The header that the generated file imports. -/
  header : String
  /-- Whether interfaces list instance variables and objects free what is above them. -/
  legacy : Bool

/-- The header when none is named. -/
def defaultHeader : String := "something.h"

/-- The part of the header for a procedure. -/
def procedureHeader (legacy : Bool) (p : Procedure) : String :=
  String.join ((interfaces legacy p).map Interface.text) ++
    entryComment p ++ (entryPoint p).text ++ "\n"

/-- The part of the implementation file for a procedure. -/
def procedureImplementation (legacy : Bool) (p : Procedure) : String :=
  String.join ((implementations legacy p).map Implementation.text) ++
    entryComment p ++ (function p).stackedText

/-- The header for a schema. -/
def headerText (o : Options) (s : Schema) : String :=
  Banner.signedMarker ++
  "#pragma once\n\n" ++
  "#import <Foundation/Foundation.h>\n\n" ++
  "#import <" ++ o.header ++ ">\n\n" ++
  "NS_ASSUME_NONNULL_BEGIN\n\n" ++
  String.join (s.wrapped.map (procedureHeader o.legacy)) ++
  "\nNS_ASSUME_NONNULL_END\n"

/-- The implementation file for a schema. -/
def implementationText (o : Options) (s : Schema) : String :=
  Banner.signedMarker ++
  "#import \"" ++ o.header ++ "\"\n\n" ++
  String.join (s.wrapped.map (procedureImplementation o.legacy))

end CqlGlue.ObjcClasses
