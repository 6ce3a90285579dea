import CqlGlue.Bindings.Code

/-!
# Return rows

A native entry point gives everything back as one row: the arguments the procedure writes, the
result code, and the result set, which is carried twice, as a number for the managed side and
as a counted reference that the row releases. The structure of the row holds its values first
and its references after them, so that the references can be released as a block; the table of
offsets keeps the declared order.

## Main definitions
* `metaTable` and `offsets` describe the fields in the declared order.
* `members` are the members of the structure.
* `refCount` and `firstRef?` describe the block of references.
* `definitions` is the text that defines a row, `fetchInfo` the record that describes it.
-/

namespace CqlGlue.ReturnRow

open Code

/-- One entry of the table of types. -/
structure MetaEntry where
  type : CoreType
  isNotNull : Bool
  remark : Option String
  deriving DecidableEq, Repr

/-- The line of an entry. -/
def MetaEntry.line (e : MetaEntry) : String :=
  "  " ++ e.type.dataType ++ (if e.isNotNull then " | CQL_DATA_TYPE_NOT_NULL" else "") ++ "," ++
    match e.remark with
    | some r => " // " ++ r
    | none => ""

/-- The table of types, in the declared order. -/
def metaTable (p : Procedure) : List MetaEntry :=
  p.outArgs.map (fun a => ⟨a.type, a.isNotNull, some a.name⟩) ++
  (if p.usesDatabase then [⟨.integer, true, none⟩] else []) ++
  (if p.hasProjection then
    [⟨.long, true, some "result as long"⟩, ⟨.object, false, some "result set as object"⟩]
  else [])

/-- A member of the structure. -/
structure Member where
  storage : String
  name : String
  /-- Whether the member is a counted reference. -/
  isReference : Bool
  deriving DecidableEq, Repr

/-- The line of a member. -/
def Member.line (m : Member) : String := "  " ++ m.storage ++ " " ++ m.name ++ ";"

/-- The member of an argument. -/
def Member.ofArgument (a : Argument) : Member := ⟨a.storage, a.name, a.type.isRef⟩

/-- The members that hold values of arguments and the result code. -/
def valueMembers (p : Procedure) : List Member :=
  (p.outArgs.filter (!·.type.isRef)).map Member.ofArgument ++
  (if p.usesDatabase then [⟨"cql_int32", "__rc", false⟩] else [])

/-- The members that hold references of arguments, and the result set in both forms. -/
def referenceMembers (p : Procedure) : List Member :=
  (p.outArgs.filter (·.type.isRef)).map Member.ofArgument ++
  (if p.hasProjection then
    [⟨"cql_int64", "__result_long", false⟩, ⟨"cql_result_set_ref", "__result", true⟩]
  else [])

/-- The members in the order of the structure. -/
def members (p : Procedure) : List Member := valueMembers p ++ referenceMembers p

/-- The names of the members, in the declared order. -/
def offsets (p : Procedure) : List String :=
  p.outArgs.map (·.name) ++
  (if p.usesDatabase then ["__rc"] else []) ++
  (if p.hasProjection then ["__result_long", "__result"] else [])

/-- The number of fields. -/
def fieldCount (p : Procedure) : Nat :=
  p.outArgs.length + (if p.usesDatabase then 1 else 0) + (if p.hasProjection then 2 else 0)

/-- The number of references. -/
def refCount (p : Procedure) : Nat :=
  (p.outArgs.filter (·.type.isRef)).length + (if p.hasProjection then 1 else 0)

/-- The member at which the block of references is said to begin. -/
def firstRef? (p : Procedure) : Option String :=
  match p.outArgs.find? (·.type.isRef) with
  | some a => some a.name
  | none => if p.hasProjection then some "__result" else none

/-- Whether the row has no fields, so that there is none. -/
def isEmpty (p : Procedure) : Bool := fieldCount p == 0

/-- A call gives something back exactly where there is a row to give back. -/
theorem hasResults_eq (p : Procedure) : p.hasResults = !isEmpty p := by
  have hnil : p.hasOutArgs = !p.outArgs.length == 0 := by
    rw [Procedure.hasOutArgs]
    cases p.outArgs <;> rfl
  rw [Procedure.hasResults, hnil, isEmpty, fieldCount]
  cases p.usesDatabase <;> cases p.hasProjection <;> cases p.outArgs.length <;> simp

/-- The name of the structure. -/
def rowType (p : Procedure) : String := p.name ++ "_return_struct"

/-- The macro for the number of references. -/
def refsCountMacro (p : Procedure) : String := rowType p ++ "_refs_count"

/-- The macro for the place of the references. -/
def refsOffsetMacro (p : Procedure) : String := rowType p ++ "_refs_offset"

/-- The place of a member. -/
def offsetOf (p : Procedure) (name : String) : String :=
  "cql_offsetof(" ++ rowType p ++ ", " ++ name ++ ")"

/-- The macros of the block of references, where there is one. -/
def refsMacros (p : Procedure) : List (String × String) :=
  match firstRef? p with
  | some name => [(refsCountMacro p, toString (refCount p)), (refsOffsetMacro p, offsetOf p name)]
  | none => []

/-- The definitions of the types, the structure, the macros and the offsets of a row, where
there is one. -/
def definitions (p : Procedure) : List String :=
  if isEmpty p then []
  else
    ["", "uint8_t " ++ p.name ++ "_return_meta[] = \x7b"] ++ (metaTable p).map MetaEntry.line ++
    ["\x7d;", "", "typedef struct " ++ rowType p ++ " \x7b"] ++ (members p).map Member.line ++
    ["\x7d " ++ rowType p ++ ";", ""] ++
    (match refsMacros p with
    | [] => []
    | macros => macros.map (fun m => "#define " ++ m.1 ++ " " ++ m.2) ++ [""]) ++
    ["static cql_uint16 " ++ p.name ++ "_offsets[] = \x7b " ++ toString (fieldCount p) ++ ","] ++
    (offsets p).map (fun name => "  " ++ offsetOf p name ++ ",") ++ ["\x7d;", ""]

/-- The record that describes a row to the runtime. -/
def fetchInfo (p : Procedure) (encodesContext : Bool) : Stmt :=
  .record "cql_fetch_info" "info"
    ((if p.usesDatabase then [("rc", "SQLITE_OK")] else []) ++
    [("col_offsets", p.name ++ "_offsets"), ("data_types", p.name ++ "_return_meta")] ++
    (if 0 < refCount p then
      [("refs_count", refsCountMacro p), ("refs_offset", refsOffsetMacro p)]
    else []) ++
    (if encodesContext then [("encode_context_index", "-1")] else []) ++
    [("rowsize", "sizeof(" ++ rowType p ++ ")")])

end CqlGlue.ReturnRow
