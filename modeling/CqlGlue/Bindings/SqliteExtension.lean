import CqlGlue.Bindings.SqliteWrapper

/-!
# The extension for SQLite

A C file with a wrapper for each procedure and the function that registers the wrappers. The
wrappers are ordered by the names of their procedures, the registrations follow the schema.

## Main definitions
* `Options` is what a file depends on apart from the schema.
* `Registration` is how a wrapper is registered.
* `text` is the whole file.
-/

namespace CqlGlue.SqliteExtension

open Code

/-- What a generated file depends on apart from the schema. -/
structure Options where
  /-- The schema, as the first line names it. -/
  source : String
  /-- The header that declares the procedures. -/
  cqlHeader : String
  /-- What the names that SQL sees begin with. -/
  namePrefix : Option String
  verbosity : Verbosity

/-- The header of the procedures when none is named. -/
def defaultHeader : String := "cqlrt.h"

/-- The name of a procedure that SQL sees. -/
def sqlName (o : Options) (p : Procedure) : String :=
  match o.namePrefix with
  | some namePrefix => namePrefix ++ "_" ++ p.name
  | none => p.name

/-- The procedures that get wrappers, by name. Equal names keep the order of the schema. -/
def ordered (s : Schema) : List Procedure := s.wrapped.mergeSort fun a b => !(b.name < a.name)

/-- The text of all wrappers. -/
def wrappersText (o : Options) (s : Schema) : String :=
  String.join ((ordered s).map fun p => SqliteWrapper.text o.verbosity (sqlName o p) p)

/-! ## Registration -/

/-- How a wrapper is registered. -/
inductive Registration where
  /-- A table valued function, with its columns and its hidden columns. -/
  | table (columns hidden : List String)
  /-- A scalar function, with the number of its arguments. -/
  | scalar (arity : Nat)
  deriving DecidableEq, Repr

/-- The registration of a procedure. The hidden columns of a table carry its arguments. -/
def registration (p : Procedure) : Registration :=
  if p.hasProjection then
    .table (p.columns.map fun c => "[" ++ c.name ++ "] " ++ c.type.name)
      (p.args.map fun a => "[arg_" ++ a.name ++ "] " ++ a.type.name ++ " hidden")
  else .scalar p.inArgs.length

/-- The registrations of a schema under the names that SQL sees, in order. -/
def registrations (o : Options) (s : Schema) : List (String × Registration) :=
  s.wrapped.map fun p => (sqlName o p, registration p)

/-- The statements of a registration. -/
def Registration.text (name : String) : Registration → String
  | table columns hidden =>
    "  aux = cql_rowset_create_aux_init(" ++ SqliteWrapper.symbol name ++
      ", \"CREATE TABLE " ++ name ++ "(" ++ String.intercalate ", " (columns ++ hidden) ++
      ")\");\n" ++
    "  rc = register_cql_rowset_tvf(db, aux, \"" ++ name ++ "\");\n"
  | scalar arity =>
    "  rc = sqlite3_create_function(db, \"" ++ name ++ "\", " ++ toString arity ++
      ", SQLITE_UTF8, NULL, " ++ SqliteWrapper.symbol name ++ ", NULL, NULL);\n"

/-- The function that registers all wrappers. -/
def initializerText (o : Options) (s : Schema) : String :=
  "\nint sqlite3_cqlextension_init(sqlite3 *_Nonnull db, char *_Nonnull *_Nonnull pzErrMsg, " ++
    "const sqlite3_api_routines *_Nonnull pApi) \x7b\n" ++
  "#ifdef CQL_SQLITE_EXT\n" ++
  "  SQLITE_EXTENSION_INIT2(pApi);  // Initialize extension API function pointers\n" ++
  "#endif\n\n" ++
  "  int rc = SQLITE_OK;\n" ++
  "  cql_rowset_aux_init *aux = NULL;\n" ++
  String.join ((registrations o s).map fun r =>
    "\n" ++ r.2.text r.1 ++ "\n  if (rc != SQLITE_OK) return rc;\n") ++
  "\n  return rc;\n" ++
  "\x7d\n"

/-! ## The file -/

/-- The extension for a schema. -/
def text (o : Options) (s : Schema) : String :=
  "// Generated by cqlgen from " ++ o.source ++ "\n\n" ++
  "#ifdef CQL_SQLITE_EXT\n" ++
  "#include <sqlite3ext.h>\n" ++
  "SQLITE_EXTENSION_INIT1\n" ++
  "#endif\n" ++
  "#include \"cqlrt.h\"\n" ++
  "#include \"cql_sqlite_extension.h\"\n" ++
  "#include \"" ++ o.cqlHeader ++ "\"\n\n" ++
  wrappersText o s ++ initializerText o s

end CqlGlue.SqliteExtension
