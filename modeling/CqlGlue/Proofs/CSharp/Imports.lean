import CqlGlue.Bindings.CSharpManaged
import CqlGlue.Bindings.CSharpNative
import CqlGlue.Proofs.Code.Heads
import CqlGlue.Proofs.Text.InOrder
import Mathlib.Data.List.Forall2

/-!
# Imported functions and their definitions

The managed class imports functions by their symbols, the C side defines functions of these
symbols, and a public wrapper calls each imported function. Imports and definitions go through
the procedures in the same order. An argument that may be null and is a value crosses the
boundary as two parameters, on the managed side, on the native side, and in the call of the
wrapper alike. All of this is told by what stands in the two files: the wrappers with the calls in
them, the declarations of the imported functions, and the heads of the C functions.

## Main definitions
* `Crossing` is what crosses the boundary for a type of either side.
* `crossings` is what a wrapper passes for one of its parameters, and to which parameters.
* `Wraps` is what an entry point has to be for a procedure, `Defines` what a C function has to be
  for an import.
* `wrapperText` and `importText` are what the managed file holds for an entry point.

## Main statements
* `defines_imports` holds of all schemas and all names of the class.
-/

namespace CqlGlue.CSharpManaged

open Code

/-! ## Types -/

/-- What crosses the boundary. -/
inductive Crossing where
  | truth
  | int32
  | int64
  | real
  /-- The address of characters. -/
  | text
  /-- The address of bytes. -/
  | bytes
  /-- An address that only the runtime knows to read. -/
  | object
  deriving DecidableEq

/-- What crosses for a managed type. A reference crosses alike with and without the mark of null. -/
def managedCrossings : List (String × Crossing) :=
  [("bool", .truth), ("int", .int32), ("long", .int64), ("double", .real), ("string", .text),
    ("string?", .text), ("byte[]", .bytes), ("byte[]?", .bytes), ("object", .object),
    ("object?", .object)]

/-- What crosses for a type of the C side. -/
def nativeCrossings : List (String × Crossing) :=
  [("bool", .truth), ("cql_bool", .truth), ("cql_int32", .int32), ("cql_int64", .int64),
    ("cql_double", .real), ("const char *", .text), ("const void *", .bytes),
    ("void *", .object), ("void*", .object)]

/-- A managed parameter and a parameter of the C side have the same name, and the same crosses
for their types. -/
def SameParam (m : ManagedParam) (c : Param) : Prop :=
  c.name = m.name ∧ c.isPointer = false ∧
    ∃ k, managedCrossings.lookup m.type = some k ∧ nativeCrossings.lookup c.type = some k

/-! ## Wrappers -/

/-- The managed types of values that may be null, each with the type of the value. -/
def nullableValues : List (String × String) :=
  ["bool", "int", "long", "double"].map fun type => (type ++ "?", type)

/-- The parameters of the imported function for a parameter of the wrapper, each with the
expression that is passed for it. Of a value that may be null it is passed whether it is there,
then what it is. -/
def crossings (q : ManagedParam) : List (ManagedParam × String) :=
  match nullableValues.lookup q.type with
  | some value =>
    [(⟨"bool", q.name ++ "_has_value"⟩, q.name ++ ".HasValue"),
      (⟨value, q.name ++ "_value"⟩, q.name ++ ".GetValueOrDefault()")]
  | none => [(q, q.name)]

/-- The names under which the arguments that a caller supplies cross the boundary. -/
def crossingNames (p : Procedure) : List String :=
  (if p.usesDatabase then ["__db"] else []) ++
    p.inArgs.flatMap fun a =>
      if a.isNullableValue then [a.name ++ "_has_value", a.name ++ "_value"] else [a.name]

/-- An entry point wraps the imported function of a procedure: what the wrapper takes is what the
imported function takes, with values that may be null in two, and each parameter of the
imported function is given its expression. It gives back a view exactly when the imported function
gives something back. -/
structure Wraps (p : Procedure) (e : EntryPoint) : Prop where
  name : e.name = p.name
  view : e.view = none ↔ e.imported.result = "void"
  names : e.imported.params.map (·.name) = crossingNames p
  params : e.imported.params = (e.params.flatMap crossings).map Prod.fst
  passed : e.passed = (e.params.flatMap crossings).map Prod.snd

/-- A C function is the one that an import is bound to. -/
structure Defines (i : Import) (f : Function) : Prop where
  symbol : f.symbol = i.symbol
  result : i.result = "long" ∧ f.result = "cql_int64 " ∨ i.result = "void" ∧ f.result = "void "
  params : List.Forall₂ SameParam i.params f.params

/-! ## What is printed -/

/-- Parameters as the managed file declares them. -/
def declared (params : List ManagedParam) : String :=
  String.intercalate ", " (params.map fun q => q.type ++ " " ++ q.name)

/-- The call of a function with the expressions that are passed, in order. -/
def callOf (symbol : String) (passed : List String) : String :=
  symbol ++ "(" ++ String.intercalate ", " passed ++ ")"

/-- The public wrapper of an entry point. All it does is to call the imported function. -/
def wrapperText (e : EntryPoint) : String :=
  match e.view with
  | some view =>
    "  public static " ++ view ++ " " ++ e.name ++ "(" ++ declared e.params ++ ") \x7b\n" ++
      "     return new " ++ view ++ "(new CQLResultSet(" ++ callOf e.imported.symbol e.passed ++
      "));\n" ++ "  \x7d\n\n"
  | none =>
    "  public static void " ++ e.name ++ "(" ++ declared e.params ++ ") \x7b\n" ++
      "     " ++ callOf e.imported.symbol e.passed ++ ";\n" ++ "  \x7d\n\n"

/-- The declaration of an imported function. -/
def importText (i : Import) : String :=
  "  [DllImport(@\"cql_interop.dll\")]\n" ++
    "  public static extern " ++ i.result ++ " " ++ i.symbol ++ "(" ++ declared i.params ++
    ");\n\n"

/-! ## Arguments -/

/-- The type of an argument is one of values that may be null where the argument is one. -/
theorem lookup_nullableValues (a : Argument) :
    nullableValues.lookup (typeName a.type a.isNotNull) =
      if a.isNullableValue then some (typeName a.type true) else none := by
  rw [Argument.isNullableValue]
  cases a.type <;> cases a.isNotNull <;> decide

theorem crossings_argument (a : Argument) :
    (crossings ⟨typeName a.type a.isNotNull, a.name⟩).map Prod.fst = importedParams a ∧
      (crossings ⟨typeName a.type a.isNotNull, a.name⟩).map Prod.snd = passedFor a := by
  rw [crossings, lookup_nullableValues, importedParams, passedFor]
  cases a.isNullableValue <;> exact ⟨rfl, rfl⟩

theorem names_importedParams (a : Argument) :
    (importedParams a).map (·.name) =
      if a.isNullableValue then [a.name ++ "_has_value", a.name ++ "_value"] else [a.name] := by
  rw [importedParams]
  cases a.isNullableValue <;> rfl

/-- The same crosses for both types of an argument. Values that may be null cross in two, so
their type is that of a value which is there. -/
theorem exists_crossing (t : CoreType) {notNull : Bool} (h : notNull = true ∨ t.isRef = true) :
    ∃ k, managedCrossings.lookup (typeName t notNull) = some k ∧
      nativeCrossings.lookup (CSharpNative.paramType t notNull) = some k := by
  have hlookup : (managedCrossings.lookup (typeName t notNull)).isSome = true ∧
      nativeCrossings.lookup (CSharpNative.paramType t notNull) =
        managedCrossings.lookup (typeName t notNull) := by
    revert h
    cases t <;> cases notNull <;> decide
  obtain ⟨k, hk⟩ := Option.isSome_iff_exists.1 hlookup.1
  exact ⟨k, hk, hlookup.2.trans hk⟩

theorem sameParam_argument (a : Argument) :
    List.Forall₂ SameParam (importedParams a) (CSharpNative.paramsOf a) := by
  rw [importedParams, CSharpNative.paramsOf]
  cases hnullable : a.isNullableValue with
  | true =>
    refine .cons ⟨rfl, rfl, .truth, rfl, rfl⟩ (.cons ⟨rfl, rfl, ?_⟩ .nil)
    exact exists_crossing a.type (.inl rfl)
  | false =>
    refine .cons ⟨rfl, rfl, exists_crossing a.type ?_⟩ .nil
    rw [Argument.isNullableValue] at hnullable
    cases hnotNull : a.isNotNull with
    | true => exact .inl rfl
    | false =>
      rw [hnotNull] at hnullable
      exact .inr (by simpa using hnullable)

/-! ## Entry points -/

variable {className : String} {o : CSharpNative.Options}

theorem wraps_entryPoint (p : Procedure) : Wraps p (entryPoint className p) := by
  have hdatabase : crossings ⟨"long", "__db"⟩ = [(⟨"long", "__db"⟩, "__db")] := by decide
  refine ⟨rfl, ?_, ?_, ?_, ?_⟩
  · rw [entryPoint]
    cases p.hasResults <;> simp
  · rw [entryPoint, crossingNames, List.map_append, List.map_flatMap]
    simp only [names_importedParams]
    cases p.usesDatabase <;> rfl
  · simp only [entryPoint, params, List.flatMap_append, List.map_append, List.flatMap_map,
      List.map_flatMap, (crossings_argument _).1]
    cases p.usesDatabase <;> simp [hdatabase]
  · simp only [entryPoint, params, List.flatMap_append, List.map_append, List.flatMap_map,
      List.map_flatMap, (crossings_argument _).2]
    cases p.usesDatabase <;> simp [hdatabase]

theorem defines_entryPoint (p : Procedure) :
    Defines (entryPoint o.className p).imported (CSharpNative.entryPoint o p) where
  symbol := rfl
  result := by
    rw [entryPoint, CSharpNative.entryPoint, NativeStyle.resultType, ReturnRow.hasResults_eq]
    cases ReturnRow.isEmpty p
    · exact .inl ⟨rfl, rfl⟩
    · exact .inr ⟨rfl, rfl⟩
  params := by
    have hdatabase : SameParam ⟨"long", "__db"⟩ (.plain "cql_int64" "__db") :=
      ⟨rfl, rfl, .int64, rfl, rfl⟩
    refine List.rel_append ?_ (List.rel_flatMap (List.forall₂_same.2 fun _ _ => rfl) ?_)
    · cases p.usesDatabase
      · exact .nil
      · exact .cons hdatabase .nil
    · rintro a _ rfl
      exact sameParam_argument a

/-! ## Files -/

/-- An entry point is the wrapper with the declaration of the imported function behind it. -/
theorem text_entryPoint (e : EntryPoint) :
    e.text = "  // procedure entry point " ++ e.name ++ "\n" ++ wrapperText e ++
      importText e.imported := by
  unfold EntryPoint.text wrapperText importText EntryPoint.call callOf ManagedParam.list declared
  cases e.view with
  | some view => simp only [String.append_assoc]
  | none => simp only [String.append_assoc]

theorem inOrder_entryPoint (e : EntryPoint) :
    Text.InOrder [wrapperText e, importText e.imported] e.text := by
  rw [text_entryPoint]
  change Text.InOrder ([wrapperText e] ++ [importText e.imported]) _
  exact .append (.after _ (.self _)) (.self _)

theorem inOrder_imports (s : Schema) :
    Text.InOrder
      ((entryPoints className s).flatMap fun e => [wrapperText e, importText e.imported])
      (text className s) := by
  rw [entryPoints, List.flatMap_map]
  refine (Text.InOrder.after _ (Text.InOrder.join_flatMap fun p _ => ?_)).before _
  exact .after _ (inOrder_entryPoint _)

theorem inOrder_definitions (s : Schema) :
    Text.InOrder ((CSharpNative.entryPoints o s).map Function.stackedHead)
      (CSharpNative.text o s) := by
  rw [CSharpNative.entryPoints, List.map_map]
  exact .after _ (.join fun p _ => .after _ (Function.inOrder_stackedHead _))

/-- The functions that the class imports and the functions that the C file defines correspond one
to one in order, and the public wrapper of each passes what the function takes. -/
theorem defines_imports (o : CSharpNative.Options) (s : Schema) :
    List.Forall₂ Wraps s.wrapped (entryPoints o.className s) ∧
      List.Forall₂ Defines ((entryPoints o.className s).map EntryPoint.imported)
        (CSharpNative.entryPoints o s) ∧
      Text.InOrder
        ((entryPoints o.className s).flatMap fun e => [wrapperText e, importText e.imported])
        (text o.className s) ∧
      Text.InOrder ((CSharpNative.entryPoints o s).map Function.stackedHead)
        (CSharpNative.text o s) := by
  refine ⟨?_, ?_, inOrder_imports s, inOrder_definitions s⟩
  · rw [entryPoints, List.forall₂_map_right_iff]
    exact List.forall₂_same.2 fun p _ => wraps_entryPoint p
  · rw [entryPoints, List.map_map, CSharpNative.entryPoints, List.forall₂_map_left_iff,
      List.forall₂_map_right_iff]
    exact List.forall₂_same.2 fun p _ => defines_entryPoint p

end CqlGlue.CSharpManaged
