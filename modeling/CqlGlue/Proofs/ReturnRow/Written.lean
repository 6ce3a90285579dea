import CqlGlue.Proofs.ReturnRow.Columns
import Mathlib.Data.List.Forall2

/-!
# A return row as it is written

What the C file holds for a row: a table of types, the structure, the macros of the block of
references where there is one, a table of offsets, and in the entry point the record that describes
the row to the runtime. All of it is written down here from one list, the fields of the row in
the declared order. What a type is called in C and by which method managed code reads it stands in
one table.

## Main definitions
* `RuntimeType` is what the runtime calls a type, `Field` a field of a row.
* `DefinesRow` says what lines define a row, `infoLines` are the lines that describe it.

## Main statements
* `definesRow_definitions` says that a row is written like that, and that the macros defined are the
  macros used.
-/

namespace CqlGlue.ReturnRow

open Code

/-! ## Fields -/

/-- What the runtime calls a type: the constant in tables, the storage in C and the method that
reads a cell, the latter two also for values that may be null. -/
structure RuntimeType where
  constant : String
  storage : String
  nullableStorage : String
  getter : String
  nullableGetter : String

/-- What the runtime calls the types. References have a null of their own. -/
def runtimeType : CoreType → RuntimeType
  | .bool =>
    ⟨"CQL_DATA_TYPE_BOOL", "cql_bool", "cql_nullable_bool", "getBoolean", "getNullableBoolean"⟩
  | .integer =>
    ⟨"CQL_DATA_TYPE_INT32", "cql_int32", "cql_nullable_int32", "getInteger", "getNullableInteger"⟩
  | .long =>
    ⟨"CQL_DATA_TYPE_INT64", "cql_int64", "cql_nullable_int64", "getLong", "getNullableLong"⟩
  | .real =>
    ⟨"CQL_DATA_TYPE_DOUBLE", "cql_double", "cql_nullable_double", "getDouble", "getNullableDouble"⟩
  | .object =>
    ⟨"CQL_DATA_TYPE_OBJECT", "cql_object_ref", "cql_object_ref", "getChildResultSet",
      "getChildResultSet"⟩
  | .blob => ⟨"CQL_DATA_TYPE_BLOB", "cql_blob_ref", "cql_blob_ref", "getBlob", "getBlob"⟩
  | .text => ⟨"CQL_DATA_TYPE_STRING", "cql_string_ref", "cql_string_ref", "getString", "getString"⟩

/-- A field of a row. -/
structure Field where
  /-- The member that holds it. -/
  name : String
  storage : String
  /-- The entry in the table of types. -/
  entry : String
  /-- The method that reads it. -/
  getter : String
  deriving DecidableEq

namespace Field

/-- A field of a type. -/
def ofType (name : String) (type : CoreType) (notNull : Bool) : Field :=
  let r := runtimeType type
  if notNull then ⟨name, r.storage, r.constant ++ " | CQL_DATA_TYPE_NOT_NULL", r.getter⟩
  else ⟨name, r.nullableStorage, r.constant, r.nullableGetter⟩

/-- The result set as a counted reference: an object with a storage of its own. -/
def resultSet : Field :=
  { ofType "__result" .object false with storage := "cql_result_set_ref" }

/-- The declaration of the member. -/
def declaration (f : Field) : String := "  " ++ f.storage ++ " " ++ f.name ++ ";"

/-- A line of the table of types, perhaps with a comment. -/
def IsEntryLine (f : Field) (line : String) : Prop :=
  line = "  " ++ f.entry ++ "," ∨ ∃ comment, line = "  " ++ f.entry ++ "," ++ (" // " ++ comment)

end Field

/-- The fields of a row in the declared order. -/
def fields (p : Procedure) : List Field :=
  p.outArgs.map (fun a => .ofType a.name a.type a.isNotNull) ++
  (if p.usesDatabase then [.ofType "__rc" .integer true] else []) ++
  (if p.hasProjection then [.ofType "__result_long" .long true, .resultSet] else [])

/-! ## Lines -/

/-- The lines that define the macros of a block of references, told by its size and its place. -/
def macroLines (p : Procedure) : Option (String × String) → List String
  | none => []
  | some (size, place) =>
    ["#define " ++ (rowType p ++ "_refs_count") ++ " " ++ size,
      "#define " ++ (rowType p ++ "_refs_offset") ++ " " ++ place, ""]

/-- The lines define a row: in the table of types and in that of offsets stands a line for each
field, in order, and in the structure stand the same fields. Where there are no fields nothing is
defined. -/
def DefinesRow (p : Procedure) (block : Option (String × String)) (lines : List String) : Prop :=
  (fields p = [] → block = none ∧ lines = []) ∧
  (fields p ≠ [] → ∃ entries members,
    List.Forall₂ Field.IsEntryLine (fields p) entries ∧
    members.Perm ((fields p).map Field.declaration) ∧
    lines = ["", "uint8_t " ++ p.name ++ "_return_meta[] = \x7b"] ++ entries ++
      ["\x7d;", "", "typedef struct " ++ rowType p ++ " \x7b"] ++ members ++
      ["\x7d " ++ rowType p ++ ";", ""] ++ macroLines p block ++
      ["static cql_uint16 " ++ p.name ++ "_offsets[] = \x7b " ++
        toString (fields p).length ++ ","] ++
      (fields p).map (fun f =>
        "  " ++ ("cql_offsetof(" ++ rowType p ++ ", " ++ f.name ++ ")") ++ ",") ++
      ["\x7d;", ""])

/-- A line of the record that describes a row. -/
def settingLine (name value : String) : String := "    " ++ "." ++ name ++ " = " ++ value ++ ","

/-- The record that describes a row. It uses the macros of a block of references where there is
one. -/
def infoLines (p : Procedure) (hasBlock encodesContext : Bool) : List String :=
  ["  cql_fetch_info info = \x7b"] ++
  (if p.usesDatabase then [settingLine "rc" "SQLITE_OK"] else []) ++
  [settingLine "col_offsets" (p.name ++ "_offsets"),
    settingLine "data_types" (p.name ++ "_return_meta")] ++
  (if hasBlock then
    [settingLine "refs_count" (rowType p ++ "_refs_count"),
      settingLine "refs_offset" (rowType p ++ "_refs_offset")]
  else []) ++
  (if encodesContext then [settingLine "encode_context_index" "-1"] else []) ++
  [settingLine "rowsize" ("sizeof(" ++ rowType p ++ ")"), "  \x7d;"]

/-! ## Tables and members -/

theorem storage_ofType (name : String) (t : CoreType) (notNull : Bool) :
    (Field.ofType name t notNull).storage = t.storage notNull := by
  cases t <;> cases notNull <;> rfl

theorem name_ofType (name : String) (t : CoreType) (notNull : Bool) :
    (Field.ofType name t notNull).name = name := by
  cases notNull <;> rfl

/-- An entry of the table of types is written as that of a field. -/
theorem isEntryLine_ofType (name : String) (e : MetaEntry) :
    (Field.ofType name e.type e.isNotNull).IsEntryLine e.line := by
  obtain ⟨type, notNull, remark⟩ := e
  have hname : (Field.ofType name type notNull).entry = (Field.ofType "" type notNull).entry := by
    cases notNull <;> rfl
  have hentry : "  " ++ type.dataType ++ (if notNull then " | CQL_DATA_TYPE_NOT_NULL" else "") =
      "  " ++ (Field.ofType "" type notNull).entry := by
    cases type <;> cases notNull <;> decide
  unfold Field.IsEntryLine MetaEntry.line
  rw [hname, hentry]
  cases remark with
  | none => exact .inl (String.append_empty)
  | some comment => exact .inr ⟨comment, rfl⟩

theorem forall₂_isEntryLine (p : Procedure) :
    List.Forall₂ Field.IsEntryLine (fields p) ((metaTable p).map MetaEntry.line) := by
  rw [List.forall₂_map_right_iff]
  refine List.rel_append (List.rel_append ?_ ?_) ?_
  · rw [List.forall₂_map_left_iff, List.forall₂_map_right_iff]
    exact List.forall₂_same.2 fun a _ => isEntryLine_ofType a.name ⟨a.type, a.isNotNull, a.name⟩
  · cases p.usesDatabase
    · exact .nil
    · exact .cons (isEntryLine_ofType "__rc" ⟨.integer, true, none⟩) .nil
  · cases p.hasProjection
    · exact .nil
    · have hnumber := isEntryLine_ofType "__result_long" ⟨.long, true, some "result as long"⟩
      have hset := isEntryLine_ofType "__result" ⟨.object, false, some "result set as object"⟩
      exact .cons hnumber (.cons hset .nil)

/-- The declared members are the fields. -/
theorem map_line_declaredMembers (p : Procedure) :
    (declaredMembers p).map Member.line = (fields p).map Field.declaration := by
  have hargument : ∀ a : Argument, (Member.ofArgument a).line =
      (Field.ofType a.name a.type a.isNotNull).declaration := by
    intro a
    rw [Field.declaration, storage_ofType, name_ofType]
    rfl
  rw [declaredMembers, fields]
  simp only [List.map_append, List.map_map]
  congr 1
  · congr 1
    · exact List.map_congr_left fun a _ => hargument a
    · cases p.usesDatabase <;> rfl
  · cases p.hasProjection <;> rfl

theorem map_name_fields (p : Procedure) : (fields p).map Field.name = offsets p := by
  rw [fields, offsets]
  simp only [List.map_append, List.map_map]
  congr 1
  · congr 1
    · exact List.map_congr_left fun a _ => name_ofType a.name a.type a.isNotNull
    · cases p.usesDatabase <;> rfl
  · cases p.hasProjection <;> rfl

theorem length_fields (p : Procedure) : (fields p).length = fieldCount p := by
  cases hd : p.usesDatabase <;> cases hp : p.hasProjection <;> simp [fields, fieldCount, hd, hp]

theorem isEmpty_iff (p : Procedure) : isEmpty p = true ↔ fields p = [] := by
  rw [isEmpty, beq_iff_eq, ← length_fields, List.length_eq_zero_iff]

/-! ## Definitions -/

/-- The block of references that the macros tell of. -/
def block? (p : Procedure) : Option (String × String) :=
  (firstRef? p).map fun name => (toString (refCount p), offsetOf p name)

theorem macroLines_eq (p : Procedure) :
    macroLines p (block? p) = match refsMacros p with
      | [] => []
      | macros => macros.map (fun m => "#define " ++ m.1 ++ " " ++ m.2) ++ [""] := by
  rw [block?, refsMacros]
  cases firstRef? p <;> rfl

theorem isSome_block? (p : Procedure) : (block? p).isSome = decide (0 < refCount p) := by
  have hmacros := refsMacros_eq p
  rw [refsMacros] at hmacros
  rw [block?, Option.isSome_map]
  cases h : firstRef? p with
  | none =>
    rw [h] at hmacros
    by_cases hcount : 0 < refCount p
    · simp [hcount] at hmacros
    · simp [hcount]
  | some name =>
    rw [h] at hmacros
    by_cases hcount : 0 < refCount p
    · simp [hcount]
    · simp [hcount] at hmacros

theorem block?_eq_none {p : Procedure} (h : fields p = []) : block? p = none := by
  have hmacros := refsMacros_eq_nil ((isEmpty_iff p).2 h)
  rw [refsMacros] at hmacros
  rw [block?, Option.map_eq_none_iff]
  cases hfirst : firstRef? p with
  | none => rfl
  | some name =>
    rw [hfirst] at hmacros
    exact absurd hmacros (List.cons_ne_nil _ _)

/-- What defines a row is written as it has to be. -/
theorem definesRow_definitions (p : Procedure) : DefinesRow p (block? p) (definitions p) := by
  constructor
  · intro h
    exact ⟨block?_eq_none h, if_pos ((isEmpty_iff p).2 h)⟩
  · intro h
    refine ⟨(metaTable p).map MetaEntry.line, (members p).map Member.line, forall₂_isEntryLine p,
      ?_, ?_⟩
    · rw [← map_line_declaredMembers]
      exact (members_perm p).map _
    · have hoffsets : (offsets p).map (fun name => "  " ++ offsetOf p name ++ ",") =
          (fields p).map fun f =>
            "  " ++ ("cql_offsetof(" ++ rowType p ++ ", " ++ f.name ++ ")") ++ "," := by
        rw [← map_name_fields, List.map_map]
        rfl
      rw [definitions, if_neg ((isEmpty_iff p).not.2 h), length_fields, hoffsets]
      exact congrArg (fun macros => _ ++ macros ++ _ ++ _ ++ _) (macroLines_eq p).symm

/-- The record that describes a row uses the macros of a block of references where there is
one. -/
theorem lines_fetchInfo (p : Procedure) (encodesContext : Bool) :
    (fetchInfo p encodesContext).lines 1 = infoLines p (block? p).isSome encodesContext := by
  have hone : Stmt.indent 1 = "  " := by decide
  have htwo : Stmt.indent (1 + 1) = "    " := by decide
  have hopen : "  " ++ "cql_fetch_info" ++ " " ++ "info" ++ " = \x7b" =
      "  cql_fetch_info info = \x7b" := by decide
  have hclose : "  " ++ "\x7d;" = "  \x7d;" := by decide
  rw [isSome_block?, fetchInfo, Stmt.lines, hone, htwo, hopen, hclose, infoLines]
  cases p.usesDatabase <;> cases encodesContext <;> by_cases h : 0 < refCount p <;>
    simp [h, settingLine, refsCountMacro, refsOffsetMacro]

end CqlGlue.ReturnRow
