import CqlGlue.Bindings.ReturnRow

/-!
# Native entry points

The C function behind a managed entry point. It turns its parameters into what the procedure
takes, calls the procedure, copies what the procedure wrote into the return row, and hands the
row over as a result set of one row.

## Main definitions
* `Marshalled` is what one argument needs before, in and after the call.
* `NativeStyle` holds what differs between the managed languages.
* `NativeStyle.body` is the body of an entry point.
-/

namespace CqlGlue

open Code

/-- What one argument needs for the call of a procedure. -/
structure Marshalled where
  before : List Stmt
  passed : CallArg
  after : List Stmt
  deriving Repr

/-- What differs between the entry points of one managed language and another. -/
structure NativeStyle where
  /-- The variable that receives the result set of the procedure. -/
  resultSet : String
  /-- The variable that receives the row as a result set. -/
  outputs : String
  /-- The type of the number that stands for a result set. -/
  handle : String
  /-- The comment on the row keeping the result set. -/
  takeover : String
  /-- Comments between the variables and the call. -/
  notes : List Stmt
  /-- Whether the runtime is told that no column holds an encoding context. -/
  encodesContext : Bool
  marshal : Argument → Marshalled

namespace NativeStyle

/-- The variables of an entry point other than those of its arguments. -/
def locals (style : NativeStyle) (p : Procedure) : List Stmt :=
  (if p.usesDatabase then [.define "cql_code" "rc" (.name "SQLITE_OK")] else []) ++
  (if p.hasProjection then
    [.define (p.name ++ "_result_set_ref") style.resultSet (.name "NULL")]
  else []) ++
  (if ReturnRow.isEmpty p then []
  else
    let row := ReturnRow.rowType p
    [.define "cql_result_set_ref" style.outputs (.name "NULL"),
      .definePointer row "row"
        (.cast (row ++ " *") (.call "calloc" [.name "1", .name ("sizeof(" ++ row ++ ")")]))])

/-- What is passed before the arguments: the database and the place of the result set. -/
def leading (style : NativeStyle) (p : Procedure) : List Expr :=
  (if p.usesDatabase then [.cast "sqlite3*" (.name "__db")] else []) ++
  (if p.hasProjection then [.address (.name style.resultSet)] else [])

/-- The call of the procedure. -/
def call (style : NativeStyle) (p : Procedure) : ProcCall :=
  .ofProcedure p (style.leading p) (p.args.map fun a => (style.marshal a).passed) .inline

/-- The end of an entry point that gives something back: the result code and the result set
go into the row, and the row becomes a result set. -/
def handover (style : NativeStyle) (p : Procedure) : List Stmt :=
  if ReturnRow.isEmpty p then []
  else
    (if p.usesDatabase then [.assign (.member "row" "__rc") (.name "rc")] else []) ++
    (if p.hasProjection then
      [.note style.takeover,
        .assign (.member "row" "__result") (.cast "cql_result_set_ref" (.name style.resultSet)),
        .assign (.member "row" "__result_long") (.cast "int64_t" (.name style.resultSet))]
    else []) ++
    [.blank, ReturnRow.fetchInfo p style.encodesContext,
      .perform (.call "cql_one_row_result"
        [.address (.name "info"), .cast "char *" (.name "row"), .name "1",
          .address (.name style.outputs)]),
      .leave (some (.cast style.handle (.name style.outputs)))]

/-- The body of an entry point. -/
def body (style : NativeStyle) (p : Procedure) : List Stmt :=
  style.locals p ++ style.notes ++
    Stmt.setOff (p.args.flatMap fun a => (style.marshal a).before) ++
    [.call (style.call p)] ++
    Stmt.setOff (p.args.flatMap fun a => (style.marshal a).after) ++
    style.handover p

/-- What an entry point gives back. -/
def resultType (style : NativeStyle) (p : Procedure) : String :=
  if ReturnRow.isEmpty p then "void" else style.handle

/-- The text of an entry point with the definitions of its row. -/
def text (p : Procedure) (entry : Function) : String :=
  unlines (ReturnRow.definitions p) ++ entry.stackedText

end NativeStyle

end CqlGlue
