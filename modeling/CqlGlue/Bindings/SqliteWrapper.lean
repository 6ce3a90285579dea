import CqlGlue.Bindings.Code
import CqlGlue.Bindings.Verbosity

/-!
# Wrappers for SQLite

The C function by which SQL calls a procedure. A procedure with a result set becomes a table
valued function, any other one a scalar function whose value is the first argument written back
that is no object. The body checks the values it is given, turns them into arguments, calls the
procedure, releases what only the call needed, and leaves by one of two exits.

A wrapper is a list of lines, each a statement with the verbosity from which on it is printed.

## Main definitions
* `signature` is the comment by which a wrapper is announced.
* `head` and `body` make up a wrapper, `text` prints one.
-/

namespace CqlGlue.SqliteWrapper

open Code

/-- A statement of a wrapper. -/
structure Line where
  /-- The verbosity from which on the line is printed. -/
  least : Verbosity
  stmt : Stmt
  deriving Repr

/-- A statement that is always printed. -/
def always (s : Stmt) : Line := ⟨.quiet, s⟩

/-- A comment that is printed from a verbosity on. -/
def remark (least : Verbosity) (text : String) : Line := ⟨least, .note text⟩

/-- The lines that a verbosity prints. -/
def shown (v : Verbosity) (lines : List Line) : List Stmt :=
  (lines.filter fun l => v.atLeast l.least).map (·.stmt)

theorem shown_append (v : Verbosity) (xs ys : List Line) :
    shown v (xs ++ ys) = shown v xs ++ shown v ys := by
  simp [shown]

@[simp]
theorem shown_always_cons (v : Verbosity) (s : Stmt) (ls : List Line) :
    shown v (always s :: ls) = s :: shown v ls := by
  simp [shown, always, Verbosity.atLeast, Verbosity.rank]

theorem shown_subset (v : Verbosity) (ls : List Line) : shown v ls ⊆ ls.map (·.stmt) :=
  List.map_subset _ fun _ h => (List.mem_filter.1 h).1

theorem mem_shown_always {v : Verbosity} {s : Stmt} {ls : List Line} (h : always s ∈ ls) :
    s ∈ shown v ls :=
  List.mem_map.2 ⟨_, List.mem_filter.2 ⟨h, by simp [always, Verbosity.atLeast, Verbosity.rank]⟩,
    rfl⟩

/-! ## Signatures -/

/-- A type as SQL declares it. -/
def sqlType (type : CoreType) (notNull : Bool) : String := type.name ++ if notNull then "!" else ""

/-- A declared name. -/
def declared (name : String) (type : CoreType) (notNull : Bool) : String :=
  "\u0060" ++ name ++ "\u0060 " ++ sqlType type notNull

/-- The argument whose value a scalar function has: the first one written back that is no
object, since objects have no value in SQL. -/
def scalarOutput? (p : Procedure) : Option Argument := p.outArgs.find? (·.type != .object)

/-- The objects passed over in the search for the value of a scalar function. -/
def passedOver (p : Procedure) : List Argument := p.outArgs.takeWhile (·.type == .object)

/-- The parameters that SQL sees. -/
def signatureParams (p : Procedure) : List String :=
  p.inArgs.map fun a => declared a.name a.type a.isNotNull

/-- What SQL gets. -/
def signatureResult (p : Procedure) : String :=
  if p.hasProjection then
    "(" ++ String.intercalate ", "
      (p.columns.map fun c => declared c.name c.type c.isNotNull) ++ ")"
  else
    match scalarOutput? p with
    | some a => sqlType a.type a.isNotNull
    | none => "/*void*/ int"

/-- The comment that announces a wrapper under the name that SQL sees. -/
def signature (name : String) (p : Procedure) : String :=
  "// SELECT FUNC " ++ name ++ "(" ++ String.intercalate ", " (signatureParams p) ++ ") " ++
    signatureResult p ++ ";"

/-! ## Names of the runtime -/

/-- The function that turns a value of SQL into an argument. -/
def valueReader (a : Argument) : String :=
  "resolve_" ++ (if a.type.isRef then "" else if a.isNotNull then "not_null_" else "nullable_") ++
    a.type.name ++ "_from_sqlite3_value"

/-- The function that gives SQL the value of an argument. -/
def resultWriter (a : Argument) : String :=
  match a.type with
  | .object => "sqlite3_result_cql_pointer"
  | .blob => "sqlite3_result_cql_blob"
  | .text => "sqlite3_result_cql_text"
  | .bool => if a.isNotNull then "sqlite3_result_int" else "sqlite3_result_cql_nullable_bool"
  | .integer => if a.isNotNull then "sqlite3_result_int" else "sqlite3_result_cql_nullable_int"
  | .long => if a.isNotNull then "sqlite3_result_int64" else "sqlite3_result_cql_nullable_int64"
  | .real =>
    if a.isNotNull then "sqlite3_result_double" else "sqlite3_result_cql_nullable_double"

/-- The function that releases a reference. -/
def releaser : CoreType → String
  | .blob => "cql_blob_release"
  | .object => "cql_object_release"
  | _ => "cql_string_release"

/-! ## The parts of a body -/

/-- The exit for calls with wrong arguments. -/
def badExit : String := "invalid_arguments"

/-- The exit for all other calls. -/
def goodExit : String := "cleanup"

/-- Clears the result of a table valued function, which must be unset at every exit. -/
def clearResult (p : Procedure) : List Line :=
  if p.hasProjection then
    [remark .verbose "// 0. Ensure output result set is cleared in case of early out",
      always (.assign (.name "*result") (.name "NULL")), always .blank]
  else []

/-- Leaves when the number of values is wrong. -/
def checkCount (p : Procedure) : List Line :=
  [remark .verbose ("// 1. Ensure Sqlite function argument count matches count of the " ++
      "procedure in and inout arguments"),
    always (.jumpWhen (.differ (.name "argc") (.name (toString p.inArgs.length))) badExit ""),
    always .blank]

/-- Leaves when a value has the wrong type. -/
def checkType (a : Argument) (index : Nat) : Stmt :=
  .jumpWhen
    (.negation (.call "is_sqlite3_type_compatible_with_cql_core_type"
      [.call "sqlite3_value_type" [.element "argv" index], .name a.type.dataType,
        .name (if a.isNotNull then "cql_false" else "cql_true")]))
    badExit (" // " ++ a.name)

/-- Leaves when any value has the wrong type. -/
def checkTypes (p : Procedure) : List Line :=
  [remark .verbose "// 2. Ensure sqlite3 value type is compatible with cql type"] ++
    p.inArgs.zipIdx.map (fun a => always (checkType a.1 a.2)) ++ [always .blank]

/-- The variable of an argument that the caller supplies. -/
def inputVariable (a : Argument) (index : Nat) : Stmt :=
  .declare ⟨a.storage, a.name, false, .value (.call (valueReader a) [.element "argv" index]), true⟩

/-- The variable of an argument that is only written. -/
def outputVariable (a : Argument) : Stmt :=
  .declare ⟨a.storage, a.name, false,
    if a.type.isRef then .value (.name "NULL")
    else if a.isNotNull then .value (.name "0") else .null, true⟩

/-- The variables of the arguments. -/
def argumentVariables (p : Procedure) : List Line :=
  [remark .verbose "// 3. Marshalled argument initialization"] ++
    p.inArgs.zipIdx.map (fun a => always (inputVariable a.1 a.2)) ++
    (p.args.filter (·.binding == .outOnly)).map (fun a => always (outputVariable a)) ++
    [always .blank]

/-- The variables the call needs besides those of the arguments. -/
def dependencies (p : Procedure) : List Line :=
  [remark .verbose "// 4. Initialize procedure dependencies"] ++
  (if p.usesDatabase then
    [always (.define "cql_code" "rc" (.name "SQLITE_OK"))] ++
    (if p.hasProjection then []
    else
      [always (.define "sqlite3*" "db"
        (.call "sqlite3_context_db_handle" [.name "context"]))]) ++ [always .blank]
  else []) ++
  if p.hasProjection then
    [always (.define (p.name ++ "_result_set_ref") "_data_result_set_" (.name "NULL")),
      always .blank]
  else []

/-- What is passed for an argument. Those written back are passed by address. -/
def callArg (a : Argument) : CallArg :=
  match a.binding, a.type with
  | .inOnly, .object => ⟨"", false, .unsupported "/* unsupported arg type object*/"⟩
  | b, _ => ⟨"", b.isOutput, .value (.name a.name)⟩

/-- The call of the procedure. -/
def call (p : Procedure) : ProcCall :=
  .ofProcedure p
    ((if p.usesDatabase then [.name "db"] else []) ++
      (if p.hasProjection then [.address (.name "_data_result_set_")] else []))
    (p.args.map callArg) .framed

/-- The call of the procedure among its comments. -/
def performCall (p : Procedure) : List Line :=
  [remark .verbose "// 5. Call the procedure", always (.call (call p)), always .blank]

/-- Releases the references that only the call needed. -/
def releaseInputs (p : Procedure) : List Line :=
  [remark .verbose "// 6. Cleanup In arguments since they are no longer needed"] ++
    (p.args.filter fun a => a.binding == .inOnly && a.type.isRef).map (fun a =>
      always (.perform (.call (releaser a.type) [.name a.name]))) ++ [always .blank]

/-- Sets the scalar value to null. -/
def nullResult : Stmt := .perform (.call "sqlite3_result_null" [.name "context"])

/-- Leaves when the procedure failed. -/
def checkCode (p : Procedure) : List Line :=
  [remark .verbose "// 7. Ensure the procedure executed successfully"] ++
  (if p.usesDatabase then
    [always (.block (.differ (.name "rc") (.name "SQLITE_OK"))
      ((if p.hasProjection then [] else [nullResult]) ++ [.jump goodExit]))]
  else []) ++ [always .blank]

/-- Gives SQL its result. -/
def giveResult (p : Procedure) : List Line :=
  [remark .verbose "// 8. Resolve the result based on:",
    remark .veryVerbose "//   (A) The rows of the result_set, if any",
    remark .veryVerbose "//   (B) The first outtie argument (out or inout) value, if any",
    remark .veryVerbose "//   (C) Fallback to: null",
    remark .veryVerbose "//"] ++
  (if p.hasProjection then
    [remark .veryVerbose
        "// Current strategy: (A) Table valued function that exposes the result set",
      always (.assign (.name "*result")
        (.cast "cql_result_set_ref" (.name "_data_result_set_")))]
  else
    match scalarOutput? p with
    | some a =>
      [remark .veryVerbose "// Current strategy: (B) Using Outtie arguments",
        remark .veryVerbose "// Set Sqlite result",
        always (.perform (.call (resultWriter a) [.name "context", .name a.name]))]
    | none =>
      [remark .veryVerbose "// Current strategy: (C) Fallback to null", always nullResult]) ++
  [always (.jump goodExit), always .blank]

/-- The exit for calls with wrong arguments. -/
def rejection (p : Procedure) : List Line :=
  [always (.label badExit)] ++
  (if p.hasProjection then []
  else
    [always (.perform (.call "sqlite3_result_error"
      [.name "context", .name "\"CQL extension: Invalid procedure arguments\"",
        .name "-1"]))]) ++
  [always (.leave none), always .blank]

/-- The exit for all other calls: releases the references that were written back. -/
def release (p : Procedure) : List Line :=
  [always (.label goodExit), remark .verbose "// 10. Cleanup Outtie arguments"] ++
    (p.outArgs.filter (·.type.isRef)).map (fun a =>
      always (.performWhen (.name a.name) (.call (releaser a.type) [.name a.name]))) ++
    [⟨.normal, .idle "Avoid empty block warning"⟩]

/-- The body of a wrapper. -/
def body (p : Procedure) : List Line :=
  clearResult p ++ checkCount p ++ checkTypes p ++ argumentVariables p ++ dependencies p ++
    performCall p ++ releaseInputs p ++ checkCode p ++ giveResult p ++ rejection p ++ release p

/-! ## Wrappers -/

/-- The comments and the signature above a wrapper. -/
def preface (name : String) (p : Procedure) : List Line :=
  (passedOver p).map (fun a => remark .normal
    ("/* object not implemented yet, skipping outtie arg " ++ a.name ++ " */")) ++
  [remark .quiet (signature name p)]

/-- The parameters of a wrapper. -/
def params (p : Procedure) : List Param :=
  if p.hasProjection then
    [.plain "sqlite3 *_Nonnull" "db", .plain "int32_t" "argc",
      .plain "sqlite3_value *_Nonnull *_Nonnull" "argv", ⟨"cql_result_set_ref", "result", true⟩]
  else
    [.plain "sqlite3_context *_Nonnull" "context", .plain "int32_t" "argc",
      .plain "sqlite3_value *_Nonnull *_Nonnull" "argv"]

/-- The symbol of a wrapper under the name that SQL sees. -/
def symbol (name : String) : String := "call_" ++ name

/-- A wrapper as a function, at a verbosity. -/
def function (v : Verbosity) (name : String) (p : Procedure) : Function :=
  ⟨"void ", symbol name, params p, shown v (body p)⟩

/-- The text of a wrapper, with an empty line after it. -/
def text (v : Verbosity) (name : String) (p : Procedure) : String :=
  unlines (Stmt.linesOf 0 (shown v (preface name p))) ++ (function v name p).text ++ "\n"

end CqlGlue.SqliteWrapper
