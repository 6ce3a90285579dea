import CqlGlue.Bindings.CSharpManaged
import CqlGlue.Bindings.CSharpNative
import CqlGlue.Bindings.JavaManaged
import CqlGlue.Bindings.JavaNative
import CqlGlue.Proofs.Code.Calls
import CqlGlue.Proofs.ReturnRow.Written
import CqlGlue.Proofs.Text.InOrder

/-!
# Return rows and their readers

The entry points in C fill a row, and managed code finds a column of it by its number alone. Both
agree: the tables of types and offsets have a line for each field in the declared order, the
structure declares each field once, with the storage that its type has, and every managed reader
asks for the number of the column that carries its output, by the method for the type of that
column.

## Main definitions
* `outputs` are the outputs of a procedure, each with the field that carries it.
* `Reads` says that an expression reads the column of a field.
* `HasProperties` and `HasGetters` are the texts of the classes that read a row.
* `Agrees` is what the files have to agree on.

## Main statements
* `agrees` holds of every procedure whose arguments have names of their own.
-/

namespace CqlGlue.ReturnRow

open Code

/-! ## What has to agree -/

/-- The outputs of a procedure in the declared order: what callers call each, and the field of
the row that carries it. -/
def outputs (p : Procedure) : List (String × String) :=
  p.outArgs.map (fun a => (a.name, a.name)) ++
  (if p.usesDatabase then [("result_code", "__rc")] else []) ++
  (if p.hasProjection then [("result_set", "__result_long")] else [])

/-- An expression reads the only row at the number of the column that a field has, by the method for
the type of the column. The number of a result set is made into a view of it. -/
inductive Reads (p : Procedure) (field : String) : String → Prop
  | cell {i : Nat} {f : Field} (hf : (fields p)[i]? = some f) (hname : f.name = field) :
      Reads p field ("mResultSet." ++ f.getter ++ "(0, " ++ toString i ++ ")")
  | view (view : String) {i : Nat} {f : Field} (hf : (fields p)[i]? = some f)
      (hname : f.name = field) :
      Reads p field ("new " ++ view ++ "(new CQLResultSet(" ++
        ("mResultSet." ++ f.getter ++ "(0, " ++ toString i ++ ")") ++ "))")

/-- A property of a C# class with the expression that it answers. -/
def propertyText (type name expression : String) : String :=
  "    public " ++ type ++ " " ++ name ++ " \x7b\n" ++
  "      get \x7b\n" ++
  "        return " ++ expression ++ ";\n" ++
  "      \x7d\n" ++
  "    \x7d\n"

/-- A getter of a Java class with the expression that it answers. -/
def getterText (type name expression : String) : String :=
  "    public " ++ type ++ " get_" ++ name ++ "() \x7b\n" ++
  "      return " ++ expression ++ ";\n" ++
  "    \x7d\n"

/-- The text of a C# class whose properties read the outputs of a procedure, one each in order. It
has nothing beside them but the number of rows, which is one, and the answer that rows have no
identity. -/
def HasProperties (p : Procedure) (text : String) : Prop :=
  ∃ readers : List String,
    List.Forall₂ (fun o t => ∃ type expression, Reads p o.2 expression ∧
      t = propertyText type o.1 expression) (outputs p) readers ∧
    text = "  public sealed class " ++ (p.name ++ "ReturnType") ++ " : CQLViewModel \x7b\n" ++
      "    public " ++ (p.name ++ "ReturnType") ++
        "(CQLResultSet resultSet) : base(resultSet) \x7b\n" ++
      "    \x7d\n\n" ++
      String.intercalate "\n" (readers ++
        ["    public int Count \x7b\n       get \x7b\n        return 1;\n       \x7d\n    \x7d\n",
          "    override protected bool hasIdentityColumns() \x7b\n" ++
            "      return false;\n    \x7d\n"]) ++
      "  \x7d\n\n"

/-- The text of a Java class whose getters read the outputs of a procedure, one each in order. It
has nothing beside them but the number of rows, which is one, and the answer that rows have no
identity. -/
def HasGetters (p : Procedure) (text : String) : Prop :=
  ∃ readers : List String,
    List.Forall₂ (fun o t => ∃ type expression, Reads p o.2 expression ∧
      t = getterText type o.1 expression) (outputs p) readers ∧
    text = "  static public final class " ++ (p.name ++ "Results") ++
        " extends CQLViewModel \x7b\n" ++
      "    public " ++ (p.name ++ "Results") ++ "(CQLResultSet resultSet) \x7b\n" ++
      "       super(resultSet);\n" ++
      "    \x7d\n\n" ++
      String.intercalate "\n" (readers ++
        ["    public int getCount() \x7b\n      return 1;\n    \x7d\n",
          "    @Override\n    protected boolean hasIdentityColumns() \x7b\n      return false;\n" ++
            "    \x7d\n"]) ++
      "  \x7d\n\n"

/-- What a row and its readers have to agree on. -/
structure Agrees (p : Procedure) : Prop where
  /-- No two fields are held by one member. -/
  nodup : ((fields p).map Field.name).Nodup
  /-- The macros that are defined are the macros that are used. -/
  row : ∃ block, DefinesRow p block (definitions p) ∧
    ∀ encodesContext,
      (fetchInfo p encodesContext).lines 1 = infoLines p block.isSome encodesContext
  inCSharp : fields p ≠ [] → ∀ o s, p ∈ s.wrapped →
    Text.InOrder [String.join ((definitions p).map (· ++ "\n")),
        String.join (((fetchInfo p false).lines 1).map (· ++ "\n"))]
      (CSharpNative.text o s)
  inJava : fields p ≠ [] → ∀ o s, p ∈ s.wrapped →
    Text.InOrder [String.join ((definitions p).map (· ++ "\n")),
        String.join (((fetchInfo p true).lines 1).map (· ++ "\n"))]
      (JavaNative.text o s)
  readByCSharp : ∃ text, HasProperties p text ∧
    ∀ className s, p ∈ s.wrapped → Text.InOrder [text] (CSharpManaged.text className s)
  readByJava : ∃ text, HasGetters p text ∧
    ∀ package className s, p ∈ s.wrapped →
      Text.InOrder [text] (JavaManaged.text package className s)

/-! ## Columns -/

theorem getter_ofType (name : String) (t : CoreType) (notNull : Bool) :
    (Field.ofType name t notNull).getter = t.accessor notNull := by
  have hname : (Field.ofType name t notNull).getter = (Field.ofType "" t notNull).getter := by
    cases notNull <;> rfl
  rw [hname]
  cases t <;> cases notNull <;> decide

theorem text_cell (accessor : String) (i : Nat) :
    (Reading.cell accessor "0" i).text =
      "mResultSet." ++ accessor ++ "(0, " ++ toString i ++ ")" := by
  have htext : (Reading.cell accessor "0" i).text =
      "mResultSet." ++ accessor ++ "(" ++ "0" ++ ", " ++ toString i ++ ")" := rfl
  have hrow : "(0, " = "(" ++ "0" ++ ", " := by decide
  rw [htext, hrow]
  simp only [String.append_assoc]

theorem reads_argument {p : Procedure} {i : Nat} {a : Argument} (h : p.outArgs[i]? = some a) :
    Reads p a.name (Reading.cell (a.type.accessor a.isNotNull) "0" i).text := by
  have hi : i < p.outArgs.length := (List.getElem?_eq_some_iff.1 h).1
  have hfield : (fields p)[i]? = some (.ofType a.name a.type a.isNotNull) := by
    rw [fields, List.append_assoc, List.getElem?_append_left (by simpa using hi),
      List.getElem?_map, h]
    rfl
  rw [text_cell, ← getter_ofType a.name]
  exact .cell hfield (name_ofType _ _ _)

theorem reads_resultCode {p : Procedure} (h : p.usesDatabase = true) :
    Reads p "__rc" (Reading.cell "getInteger" "0" p.outArgs.length).text := by
  have hfield : (fields p)[p.outArgs.length]? = some (.ofType "__rc" .integer true) := by
    simp [fields, h]
  have hgetter : (Field.ofType "__rc" .integer true).getter = "getInteger" := rfl
  rw [text_cell, ← hgetter]
  exact .cell hfield rfl

theorem reads_resultSet {p : Procedure} (h : p.hasProjection = true) (view : String) :
    Reads p "__result_long"
      (Reading.child view (p.outArgs.length + if p.usesDatabase then 1 else 0)).text := by
  have hfield : (fields p)[p.outArgs.length + if p.usesDatabase then 1 else 0]? =
      some (.ofType "__result_long" .long true) := by
    cases hd : p.usesDatabase <;> simp [fields, h, hd]
  have htext : ∀ i, (Reading.child view i).text =
      "new " ++ view ++ "(new CQLResultSet(mResultSet.getLong(0, " ++ toString i ++ ")))" :=
    fun _ => rfl
  have hopen : "(new CQLResultSet(mResultSet.getLong(0, " = "(new CQLResultSet(" ++
      ("mResultSet." ++ (Field.ofType "__result_long" .long true).getter ++ "(0, ") := by decide
  have hclose : ")))" = ")" ++ "))" := by decide
  have hreads : Reads p "__result_long" _ := .view view hfield rfl
  rw [htext, hopen, hclose]
  simpa only [String.append_assoc] using hreads

/-- The texts of readers for each argument, for the result code and for the result set, in this
order and with the column numbers that the loop over them counts, read what they should. -/
theorem forall₂_readers {p : Procedure} {R : String × String → String → Prop} (view : String)
    (ofArgument : Argument → Reading → String) (ofCode ofSet : Reading → String)
    (hargument : ∀ a r, Reads p a.name r.text → R (a.name, a.name) (ofArgument a r))
    (hcode : ∀ r, Reads p "__rc" r.text → R ("result_code", "__rc") (ofCode r))
    (hset : ∀ r, Reads p "__result_long" r.text → R ("result_set", "__result_long") (ofSet r)) :
    List.Forall₂ R (outputs p)
      (p.outArgs.zipIdx.map
          (fun a => ofArgument a.1 (.cell (a.1.type.accessor a.1.isNotNull) "0" a.2)) ++
        (if p.usesDatabase then [ofCode (.cell "getInteger" "0" p.outArgs.length)] else []) ++
        (if p.hasProjection then
          [ofSet (.child view (p.outArgs.length + if p.usesDatabase then 1 else 0))]
        else [])) := by
  refine List.rel_append (List.rel_append ?_ ?_) ?_
  · rw [List.forall₂_iff_get]
    refine ⟨by simp, ?_⟩
    intro i hi hi'
    simp only [List.length_map] at hi
    simp only [List.get_eq_getElem, List.getElem_map, List.getElem_zipIdx, Nat.zero_add]
    exact hargument _ _ (reads_argument (List.getElem?_eq_getElem hi))
  · cases h : p.usesDatabase with
    | false => exact .nil
    | true => exact .cons (hcode _ (reads_resultCode h)) .nil
  · cases h : p.hasProjection with
    | false => exact .nil
    | true => exact .cons (hset _ (reads_resultSet h view)) .nil

/-! ## Classes -/

theorem text_property (type name : String) (r : Reading) :
    (ManagedMember.property type name r).text = propertyText type name r.text := by
  have hpublic : "    public " = "    " ++ "public " := by decide
  have hget : "      get \x7b\n" = String.ofList (List.replicate 6 ' ') ++ "get \x7b\n" := by decide
  have hclose : "      \x7d\n" = String.ofList (List.replicate 6 ' ') ++ "\x7d\n" := by decide
  unfold ManagedMember.text ManagedMember.property propertyText
  rw [hpublic, hget, hclose, List.map_nil, String.join_nil, String.empty_append]
  simp only [String.append_assoc]

theorem text_getter (type name : String) (r : Reading) :
    (ManagedMember.method type ("get_" ++ name) [] r).text = getterText type name r.text := by
  have hpublic : "    public " = "    " ++ "public " := by decide
  have hname : " get_" = " " ++ "get_" := by decide
  have hparams : "() \x7b\n" = "(" ++ ManagedParam.list [] ++ ") \x7b\n" := by decide
  unfold ManagedMember.text ManagedMember.method getterText
  rw [hpublic, hname, hparams, List.map_nil, String.join_nil, String.empty_append]
  simp only [String.append_assoc]

theorem hasProperties_returnType (p : Procedure) :
    HasProperties p (CSharpManaged.returnTypeText (CSharpManaged.returnType p)) := by
  refine ⟨(CSharpManaged.outputMembers p).map ManagedMember.text, ?_, ?_⟩
  · have hreaders := forall₂_readers (p := p)
      (R := fun o t => ∃ type expression, Reads p o.2 expression ∧
        t = propertyText type o.1 expression)
      (CSharpManaged.viewModelName p)
      (fun a r => (ManagedMember.property (CSharpManaged.outputType a) a.name r).text)
      (fun r => (ManagedMember.property "int" "result_code" r).text)
      (fun r => (ManagedMember.property (CSharpManaged.viewModelName p) "result_set" r).text)
      (fun _ _ h => ⟨_, _, h, text_property ..⟩) (fun _ h => ⟨_, _, h, text_property ..⟩)
      (fun _ h => ⟨_, _, h, text_property ..⟩)
    rw [CSharpManaged.outputMembers, List.map_append, List.map_append, List.map_map,
      apply_ite (List.map _), apply_ite (List.map _)]
    exact hreaders
  · have hcount : (CSharpManaged.countMember (.constant "1")).text =
        "    public int Count \x7b\n       get \x7b\n        return 1;\n" ++
          "       \x7d\n    \x7d\n" := by
      decide
    have hidentity : (CSharpManaged.identityMember false).text =
        "    override protected bool hasIdentityColumns() \x7b\n" ++
          "      return false;\n    \x7d\n" := by
      decide
    unfold CSharpManaged.returnTypeText CSharpManaged.classOpening ManagedClass.membersText
    rw [CSharpManaged.returnType, List.map_append, List.map_cons, List.map_singleton, hcount,
      hidentity]
    rfl

theorem hasGetters_results (p : Procedure) :
    HasGetters p (JavaManaged.classText (JavaManaged.results p)) := by
  refine ⟨(JavaManaged.outputMembers p).map ManagedMember.text, ?_, ?_⟩
  · have hcode : "get_result_code" = "get_" ++ "result_code" := by decide
    have hset : "get_result_set" = "get_" ++ "result_set" := by decide
    have hreaders := forall₂_readers (p := p)
      (R := fun o t => ∃ type expression, Reads p o.2 expression ∧
        t = getterText type o.1 expression)
      (JavaManaged.viewModelName p)
      (fun a r => (ManagedMember.method (JavaManaged.cellType a.type a.isNotNull) ("get_" ++ a.name)
        [] r).text)
      (fun r => (ManagedMember.method "int" ("get_" ++ "result_code") [] r).text)
      (fun r => (ManagedMember.method (JavaManaged.viewModelName p) ("get_" ++ "result_set") []
        r).text)
      (fun _ _ h => ⟨_, _, h, text_getter ..⟩) (fun _ h => ⟨_, _, h, text_getter ..⟩)
      (fun _ h => ⟨_, _, h, text_getter ..⟩)
    rw [JavaManaged.outputMembers, hcode, hset, List.map_append, List.map_append, List.map_map,
      apply_ite (List.map _), apply_ite (List.map _)]
    exact hreaders
  · have hcount : (JavaManaged.countMember (.constant "1")).text =
        "    public int getCount() \x7b\n      return 1;\n    \x7d\n" := by decide
    have hidentity : (JavaManaged.identityMember false).text =
        "    @Override\n    protected boolean hasIdentityColumns() \x7b\n      return false;\n" ++
          "    \x7d\n" := by decide
    unfold JavaManaged.classText ManagedClass.membersText
    rw [JavaManaged.results, List.map_append, List.map_cons, List.map_singleton, hcount, hidentity]
    rfl

/-! ## Files -/

/-- An entry point that gives something back describes its row to the runtime. -/
theorem fetchInfo_mem_body (style : NativeStyle) {p : Procedure} (h : fields p ≠ []) :
    fetchInfo p style.encodesContext ∈ style.body p := by
  refine List.mem_append_right _ ?_
  rw [NativeStyle.handover, if_neg ((isEmpty_iff p).not.2 h)]
  simp

/-- A row is defined in front of its entry point and described in it. -/
theorem inOrder_nativeText (style : NativeStyle) {p : Procedure} (h : fields p ≠ [])
    {entry : Function} (hbody : entry.body = style.body p) :
    Text.InOrder [String.join ((definitions p).map (· ++ "\n")),
        String.join (((fetchInfo p style.encodesContext).lines 1).map (· ++ "\n"))]
      (NativeStyle.text p entry) := by
  obtain ⟨before, after, hsplit⟩ := List.append_of_mem (fetchInfo_mem_body style h)
  have hinfo : Text.InOrder
      [String.join (((fetchInfo p style.encodesContext).lines 1).map (· ++ "\n"))]
      entry.stackedText := by
    rw [Function.stackedText, Function.bodyText_eq (hbody.trans hsplit)]
    exact .before (.after _ (.before (.after _ (.self _)) _)) _
  exact Text.InOrder.append (.self _) hinfo

/-- The row of a procedure whose arguments have names of their own, none of them reserved, and
the classes that read it agree on its columns. -/
theorem agrees {p : Procedure} (hnodup : (p.args.map (·.name)).Nodup)
    (hplain : ∀ a ∈ p.args, ¬ "__".toList <+: a.name.toList) : Agrees p where
  nodup := map_name_fields p ▸ nodup_offsets hnodup hplain
  row := ⟨block? p, definesRow_definitions p, lines_fetchInfo p⟩
  inCSharp h o s hp :=
    .after _ (.join_of_mem hp (inOrder_nativeText CSharpNative.style h rfl))
  inJava h o s hp :=
    .after _ (.join_of_mem hp (inOrder_nativeText JavaNative.style h rfl))
  readByCSharp := by
    refine ⟨_, hasProperties_returnType p, fun className s hp => ?_⟩
    exact .before (.after _ (.join_of_mem hp (.before (.after _ (.self _)) _))) _
  readByJava := by
    refine ⟨_, hasGetters_results p, fun package className s hp => ?_⟩
    exact .before (.after _ (.join_of_mem hp (.before (.after _ (.self _)) _))) _

/-- A procedure with a value and a reference among its outputs, a result code and a result set. -/
def countedQuery : Procedure where
  name := "counted"
  args := [⟨"label", .text, false, .outOnly, none, false⟩,
    ⟨"pattern", .text, true, .inOnly, none, false⟩, ⟨"total", .long, false, .inOut, none, false⟩]
  projection := some [⟨"id", .integer, true, none, false⟩]
  attributes := []
  declaredUsesDatabase := none
  hasOutResult := false

theorem agrees_countedQuery :
    (countedQuery.args.map (·.name)).Nodup ∧
      (∀ a ∈ countedQuery.args, ¬ "__".toList <+: a.name.toList) ∧ Agrees countedQuery ∧
      fields countedQuery =
        [⟨"label", "cql_string_ref", "CQL_DATA_TYPE_STRING", "getString"⟩,
          ⟨"total", "cql_nullable_int64", "CQL_DATA_TYPE_INT64", "getNullableLong"⟩,
          ⟨"__rc", "cql_int32", "CQL_DATA_TYPE_INT32 | CQL_DATA_TYPE_NOT_NULL", "getInteger"⟩,
          ⟨"__result_long", "cql_int64", "CQL_DATA_TYPE_INT64 | CQL_DATA_TYPE_NOT_NULL", "getLong"⟩,
          ⟨"__result", "cql_result_set_ref", "CQL_DATA_TYPE_OBJECT", "getChildResultSet"⟩] := by
  have hnodup : (countedQuery.args.map (·.name)).Nodup := by decide
  have hplain : ∀ a ∈ countedQuery.args, ¬ "__".toList <+: a.name.toList := by decide
  exact ⟨hnodup, hplain, agrees hnodup hplain, by decide⟩

end CqlGlue.ReturnRow
