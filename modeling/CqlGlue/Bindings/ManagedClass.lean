import CqlGlue.Schema.Basic

/-!
# Managed classes

The classes by which managed code reads a result set. Every member of such a class answers with
one expression over the result set: a cell, the count of rows, or a constant. The classes are
data, so that it can be asked which column a member reads; each managed language prints them
with its own frame.

## Main definitions
* `Reading` is the expression of a member, `Member` a method or a property.
* `ManagedClass` is a class.
* `CoreType.accessor` names the reader of a cell of a type.
-/

namespace CqlGlue

/-- The reader of a cell of a result set. References have no reader of their own for null. -/
def CoreType.accessor (t : CoreType) (notNull : Bool) : String :=
  "get" ++ (if notNull || t.isRef then "" else "Nullable") ++
  match t with
  | bool => "Boolean"
  | integer => "Integer"
  | long => "Long"
  | real => "Double"
  | object => "ChildResultSet"
  | blob => "Blob"
  | text => "String"

/-- What a member reads. -/
inductive Reading where
  /-- The cell of a column, read by an accessor in the row of an expression. -/
  | cell (accessor row : String) (column : Nat)
  /-- The result set whose number is in a column of the only row, as a view. -/
  | child (view : String) (column : Nat)
  /-- Whether a column is encoded. -/
  | isEncoded (column : Nat)
  | rowCount
  | constant (text : String)
  deriving DecidableEq, Repr

/-- The expression of a reading. -/
def Reading.text : Reading → String
  | cell accessor row column =>
    "mResultSet." ++ accessor ++ "(" ++ row ++ ", " ++ toString column ++ ")"
  | child view column =>
    "new " ++ view ++ "(new CQLResultSet(mResultSet.getLong(0, " ++ toString column ++ ")))"
  | isEncoded column => "mResultSet.getIsEncoded(" ++ toString column ++ ")"
  | rowCount => "mResultSet.getCount()"
  | constant text => text

/-- A parameter of a managed method. -/
structure ManagedParam where
  type : String
  name : String
  deriving DecidableEq, Repr

/-- The parameters of a list, as they are declared. -/
def ManagedParam.list (params : List ManagedParam) : String :=
  String.intercalate ", " (params.map fun p => p.type ++ " " ++ p.name)

/-- What calls of a member look like. -/
inductive MemberForm where
  | method (params : List ManagedParam)
  /-- A property, its reader set at a column of the text. -/
  | property (offset : Nat)
  deriving DecidableEq, Repr

/-- A member of a managed class. -/
structure ManagedMember where
  /-- Lines before the declaration. -/
  annotations : List String
  /-- Modifiers and type. -/
  declares : String
  name : String
  form : MemberForm
  reading : Reading
  deriving DecidableEq, Repr

namespace ManagedMember

/-- A public method. -/
def method (type name : String) (params : List ManagedParam) (reading : Reading) : ManagedMember :=
  ⟨[], "public " ++ type, name, .method params, reading⟩

/-- A public property. -/
def property (type name : String) (reading : Reading) : ManagedMember :=
  ⟨[], "public " ++ type, name, .property 6, reading⟩

/-- The text of a member. -/
def text (m : ManagedMember) : String :=
  String.join (m.annotations.map fun a => "    " ++ a ++ "\n") ++
  "    " ++ m.declares ++ " " ++ m.name ++
  match m.form with
  | .method params =>
    "(" ++ ManagedParam.list params ++ ") \x7b\n" ++
    "      return " ++ m.reading.text ++ ";\n" ++
    "    \x7d\n"
  | .property offset =>
    let margin := String.ofList (List.replicate offset ' ')
    " \x7b\n" ++
    margin ++ "get \x7b\n" ++
    "        return " ++ m.reading.text ++ ";\n" ++
    margin ++ "\x7d\n" ++
    "    \x7d\n"

end ManagedMember

/-- A managed class over a result set. -/
structure ManagedClass where
  name : String
  members : List ManagedMember
  deriving DecidableEq, Repr

namespace ManagedClass

/-- The members of a class with empty lines between them. -/
def membersText (c : ManagedClass) : String :=
  String.intercalate "\n" (c.members.map ManagedMember.text)

end ManagedClass

end CqlGlue
