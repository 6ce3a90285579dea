import CqlGlue.Bindings.Banner
import CqlGlue.Bindings.Code
import CqlGlue.Log.Event

/-!
# The Objective-C shim

A header of inline functions over the C readers of result sets. Each procedure with a result
set gets an opaque class that is bridged to the C reference, and readers that box values that
may be null.

## Main definitions
* `readers` and `rowFunctions` are the functions for one procedure.
* `text` is the whole header.
-/

namespace CqlGlue.ObjcShim

open Code

/-- The class of the result set of a procedure. -/
def className (p : Procedure) : String := "CGS_" ++ p.name

/-- The C reference to the result set of a procedure. -/
def refType (p : Procedure) : String := p.name ++ "_result_set_ref"

/-- The type that a reader of a column gives. -/
def columnType (c : Column) : String :=
  match c.type with
  | .object => if c.isNotNull then "NSObject *" else "NSObject *_Nullable"
  | .blob => if c.isNotNull then "NSData *" else "NSData *_Nullable"
  | .text => if c.isNotNull then "NSString *" else "NSString *_Nullable"
  | .bool => if c.isNotNull then "cql_bool" else "NSNumber *_Nullable"
  | .integer => if c.isNotNull then "cql_int32" else "NSNumber *_Nullable"
  | .long => if c.isNotNull then "cql_int64" else "NSNumber *_Nullable"
  | .real => if c.isNotNull then "double" else "NSNumber *_Nullable"

/-- The class a reference is bridged to. -/
def bridgeType : CoreType → String
  | .blob => "NSData *"
  | .text => "NSString *"
  | _ => "NSObject *"

/-- The parameter that holds a result set. -/
def setParam (p : Procedure) (name : String) : Param := ⟨className p, name, true⟩

/-- The parameter for a row. A result set of a single row is read without a row. -/
def rowParam (p : Procedure) (name : String) : List Param :=
  if p.hasOutResult then [] else [.plain "cql_int32" name]

/-- What is passed for a row. -/
def rowArg (p : Procedure) (name : String) : List Expr :=
  if p.hasOutResult then [] else [.name name]

/-- The C reference behind the object in a variable. -/
def unwrapped (p : Procedure) (object : String) : Expr :=
  .call (p.name ++ "_from_" ++ className p) [.name object]

/-- Bridges a C reference to the class. -/
def wrap (p : Procedure) : Function :=
  ⟨"static inline " ++ className p ++ " *", className p ++ "_from_" ++ p.name,
    [.plain (refType p) "resultSet"],
    [.leave (some (.cast ("__bridge " ++ className p ++ " *") (.name "resultSet")))]⟩

/-- Bridges an object of the class to the C reference. -/
def unwrap (p : Procedure) : Function :=
  ⟨"static inline " ++ refType p ++ " ", p.name ++ "_from_" ++ className p,
    [setParam p "resultSet"],
    [.leave (some (.cast ("__bridge " ++ refType p) (.name "resultSet")))]⟩

/-- The value of a column. A value that may be null is asked for null first. -/
def columnValue (c : Column) (reader : String) (passed : List Expr) : Expr :=
  if c.type.isRef then .cast ("__bridge " ++ bridgeType c.type) (.call reader passed)
  else if !c.isNotNull then
    .choice (.call (reader ++ "_is_null") passed) (.name "nil")
      (.boxed (.call (reader ++ "_value") passed))
  else if c.type == .bool then .choice (.call reader passed) (.name "YES") (.name "NO")
  else .call reader passed

/-- Reads a column. -/
def columnReader (p : Procedure) (c : Column) : Function :=
  ⟨"static inline " ++ columnType c ++ " ", className p ++ "_get_" ++ c.name,
    setParam p "resultSet" :: rowParam p "row",
    [.define (refType p) "cResultSet" (unwrapped p "resultSet"),
      .leave (some (columnValue c (p.name ++ "_get_" ++ c.name)
        (.name "cResultSet" :: rowArg p "row")))]⟩

/-- Counts rows. -/
def count (p : Procedure) : Function :=
  ⟨"static inline cql_int32 ", className p ++ "_result_count", [setParam p "resultSet"],
    [.leave (some (.call (p.name ++ "_result_count") [unwrapped p "resultSet"]))]⟩

/-- Copies rows. -/
def copy (p : Procedure) : Function :=
  ⟨"static inline " ++ className p ++ " *", className p ++ "_copy",
    [setParam p "resultSet", .plain "cql_int32" "from", .plain "cql_int32" "count"],
    [.reserve (refType p) "copy",
      .perform (.call (p.name ++ "_copy")
        [unwrapped p "resultSet", .address (.name "copy"), .name "from", .name "count"]),
      .perform (.call "cql_result_set_note_ownership_transferred" [.name "copy"]),
      .leave (some (.cast ("__bridge_transfer " ++ className p ++ " *") (.name "copy")))]⟩

/-- Hashes a row. -/
def rowHash (p : Procedure) : Function :=
  ⟨"static inline NSUInteger ", className p ++ "_row_hash",
    setParam p "resultSet" :: rowParam p "row",
    [.leave (some (.call (p.name ++ "_row_hash")
      (unwrapped p "resultSet" :: rowArg p "row")))]⟩

/-- Compares two rows. -/
def rowEqual (p : Procedure) : Function :=
  ⟨"static inline BOOL ", className p ++ "_row_equal",
    setParam p "resultSet1" :: rowParam p "row1" ++ setParam p "resultSet2" :: rowParam p "row2",
    [.leave (some (.call (p.name ++ "_row_equal")
      (unwrapped p "resultSet1" :: rowArg p "row1" ++
        unwrapped p "resultSet2" :: rowArg p "row2")))]⟩

/-- The functions that are set off by empty lines: the bridges and the readers. -/
def readers (p : Procedure) : List Function := [wrap p, unwrap p] ++ p.columns.map (columnReader p)

/-- The functions over whole rows. -/
def rowFunctions (p : Procedure) : List Function :=
  [count p] ++ (if p.hasAttribute "cql:generate_copy" then [copy p] else []) ++
    [rowHash p, rowEqual p]

/-- The part of the header for a procedure with a result set. -/
def procedureText (p : Procedure) : String :=
  "@class " ++ className p ++ ";\n\n" ++
  "#ifdef CQL_EMIT_OBJC_INTERFACES\n" ++
  "@interface " ++ className p ++ "\n" ++
  "@end\n" ++
  "#endif\n\n" ++
  String.join ((readers p).map fun f => f.text ++ "\n") ++
  String.join ((rowFunctions p).map Function.text)

/-- The procedures of the shim: those with a result set that are not private. -/
def covered (s : Schema) : List Procedure :=
  s.procedures.filter fun p => !p.isPrivate && p.hasProjection

/-- The shim for a schema, over a C header. -/
def text (cqlHeader : String) (s : Schema) : String :=
  Banner.signedMarker ++
  "#pragma once\n\n" ++
  "#import <Foundation/Foundation.h>\n\n" ++
  "#import <" ++ cqlHeader ++ ">\n\n" ++
  "NS_ASSUME_NONNULL_BEGIN\n" ++
  String.join ((covered s).map procedureText) ++
  "\nNS_ASSUME_NONNULL_END\n"

end CqlGlue.ObjcShim
