import CqlGlue.Bindings.Target
import CqlGlue.Proofs.Bindings.ManagedCalls
import CqlGlue.Proofs.Sqlite.Lines

/-!
# Calls of procedures by the convention

Four kinds of generated files call procedures: Objective-C implementations, the C sides of the
C# and the Java bindings, and extensions for SQLite. Each makes its calls in its own way, and
all keep to one convention.

## Main definitions
* `CallingFile` lists the files, `CallingFile.caller` is the function that calls a procedure.

## Main statements
* `CallingFile.caller_followsConvention`: the files call every procedure without arguments that
  are objects by the convention.
-/

namespace CqlGlue

open Code

/-- A generated file whose functions call procedures. -/
inductive CallingFile where
  | objc (o : ObjcClasses.Options)
  | csharp (o : CSharpNative.Options)
  | java (o : JavaNative.Options)
  | sqlite (o : SqliteExtension.Options)

namespace CallingFile

/-- The file as a target. -/
def target : CallingFile → Target
  | objc o => .objcImplementation o
  | csharp o => .csharpNative o
  | java o => .javaNative o
  | sqlite o => .sqliteExtension o

/-- The function that calls a procedure. -/
def caller : CallingFile → Procedure → Function
  | objc _, p => ObjcClasses.function p
  | csharp o, p => CSharpNative.entryPoint o p
  | java o, p => JavaNative.entryPoint o p
  | sqlite o, p => SqliteWrapper.function o.verbosity (SqliteExtension.sqlName o p) p

end CallingFile

/-! ## Objective-C -/

namespace ObjcClasses

/-- The parameters of an argument. -/
def paramsOf (a : Argument) : List Param :=
  if a.binding.isInput then [.plain (valueType a.type a.isNotNull) a.name] else []

theorem mem_declaredIn_temporary {a : Argument}
    (h : a.binding = .outOnly ∨ a.isNotNull = false ∨ a.type.isRef = true) :
    (a.storage, "tmp_" ++ a.name) ∈ Stmt.declaredIn (temporary a) := by
  have hneeded : (a.binding == .outOnly || !a.isNotNull || a.type.isRef) = true := by
    rcases h with h | h | h <;> simp [h]
  rw [temporary, if_pos hneeded]
  cases href : a.type.isRef with
  | false => simp [Stmt.declaredIn, Stmt.declared?, Stmt.reserve]
  | true =>
    cases hb : a.binding <;> simp [Stmt.declaredIn, Stmt.declared?, Stmt.define]

theorem operandIsNamed_marshal {a : Argument} (hobject : a.type ≠ .object) :
    OperandIsNamed a (paramsOf a) (marshal a) := by
  -- only a value that comes in and cannot be missing is passed without a variable of its own
  by_cases h : a.binding = .outOnly ∨ a.isNotNull = false ∨ a.type.isRef = true
  · have hdeclared := mem_declaredIn_temporary h
    refine .declared a.storage "tmp_" ?_ ?_ <;>
      cases ht : a.type <;> cases hn : a.isNotNull <;>
      simp_all [marshal, CoreType.isRef, Stmt.declaredIn]
  · simp only [not_or, Bool.not_eq_false, Bool.not_eq_true] at h
    obtain ⟨hb, hn, href⟩ := h
    refine .parameter ?_ ?_
    · cases ht : a.type <;> simp_all [marshal, CoreType.isRef]
    · cases hbinding : a.binding <;> simp_all [paramsOf, Binding.isInput, Param.plain]

theorem remark_marshal (a : Argument) : IsGap (marshal a).passed.remark := by
  have hremark : (marshal a).passed.remark = "/*" ++ a.binding.name ++ "*/" ++ (" " ++ "") := by
    have hclose : "*/ " = "*/" ++ (" " ++ "") := by decide
    have htext : "/*" ++ a.binding.name ++ "*/ " =
        "/*" ++ a.binding.name ++ "*/" ++ (" " ++ "") := by
      rw [hclose]
      simp only [← String.append_assoc]
    rw [← htext]
    cases ht : a.type <;> cases hn : a.isNotNull <;> simp [marshal, ht, hn]
  rw [hremark]
  exact (isGap_remark a.binding).1.append IsGap.none.blank

theorem byAddress_marshal (a : Argument) :
    (marshal a).passed.byAddress = a.binding.isOutput := by
  cases ht : a.type <;> cases hn : a.isNotNull <;> simp [marshal, ht, hn]

theorem callsIn_temporary (a : Argument) : Stmt.callsIn (temporary a) = [] := by
  rw [temporary]
  repeat' split
  all_goals rfl

theorem callsIn_marshal (a : Argument) :
    Stmt.callsIn (marshal a).before = [] ∧ Stmt.callsIn (marshal a).after = [] := by
  cases ht : a.type <;> cases hn : a.isNotNull <;> cases hb : a.binding <;>
    simp [marshal, ht, hn, hb, callsIn_temporary, Binding.isOutput, Stmt.calls]

theorem callsIn_handover (p : Procedure) : Stmt.callsIn (handover p) = [] := by
  rw [handover]
  cases hasReturn p <;> cases p.usesDatabase <;> cases p.hasProjection <;> rfl

theorem declaredIn_locals (p : Procedure) :
    Stmt.declaredIn (locals p) =
      (if p.usesDatabase then [("cql_code", "rc")] else []) ++
      (if p.hasProjection then [(p.name ++ "_result_set_ref", "_result_set_ref")] else []) ++
      if hasReturn p then [(returnClass p, "_result")] else [] := by
  rw [locals, Stmt.declaredIn_append, Stmt.declaredIn_append]
  cases p.usesDatabase <;> cases p.hasProjection <;> cases hasReturn p <;> rfl

theorem callsIn_locals (p : Procedure) : Stmt.callsIn (locals p) = [] := by
  rw [locals, Stmt.callsIn_append, Stmt.callsIn_append]
  cases p.usesDatabase <;> cases p.hasProjection <;> cases hasReturn p <;> rfl

theorem callsByConvention {p : Procedure} (hobject : ∀ a ∈ p.args, a.type ≠ .object) :
    CallsByConvention p (function p) := by
  let before := locals p ++ Stmt.setOff (p.args.flatMap fun a => (marshal a).before)
  let after := .blank :: Stmt.setOff (p.args.flatMap fun a => (marshal a).after) ++ handover p
  have hbody : (function p).body = before ++ .call (call p) :: after := by
    simp [function, body, before, after]
  have hparams : ∀ q ∈ params p, (q.type, q.name) ∈ (function p).scope before := by
    intro q hq
    exact List.mem_append_left _ (List.mem_map.2 ⟨q, hq, rfl⟩)
  have hlocals : Stmt.declaredIn (locals p) ⊆ (function p).scope before :=
    List.Subset.trans (by simp [before]) (List.subset_append_right ..)
  refine callsByConvention_of_body hbody ?_ ?_ ?_
  · simp [before, callsIn_locals, Stmt.callsIn_flatMap fun a _ => (callsIn_marshal a).1]
  · simp [after, callsIn_handover, Stmt.calls,
      Stmt.callsIn_flatMap fun a _ => (callsIn_marshal a).2]
  · refine ⟨function_ofProcedure .., rfl, ?_, passesLeading ?_ ?_, ?_⟩
    · intro hcode
      have hcode : p.usesDatabase = true := hcode
      exact hlocals (by simp [declaredIn_locals, hcode])
    · intro hcode
      exact .declared "sqlite3 *_Nonnull" (by decide)
        (hparams (.plain _ _) (by simp [params, hcode]))
    · intro hplace
      exact .variable (hlocals (by simp [declaredIn_locals, hplace]))
    · have hargs : (call p).args = p.args.map fun a => (marshal a).passed := rfl
      rw [hargs, List.forall₂_map_right_iff]
      refine List.forall₂_same.2 fun a ha => ⟨remark_marshal a, byAddress_marshal a, ?_⟩
      refine (operandIsNamed_marshal (hobject a ha)).namesArgument ?_ ?_
      · intro q hq
        cases hread : a.binding.isInput with
        | false => simp [paramsOf, hread] at hq
        | true =>
          rw [paramsOf, if_pos hread, List.mem_singleton] at hq
          subst hq
          exact hparams _ (List.mem_append_right _
            (List.mem_map.2 ⟨a, List.mem_filter.2 ⟨ha, hread⟩, rfl⟩))
      · have hsub : (marshal a).before ⊆ before := by
          intro x hx
          exact List.mem_append_right _ (Stmt.subset_setOff _ (List.mem_flatMap.2 ⟨a, ha, hx⟩))
        exact List.Subset.trans (Stmt.declaredIn_subset hsub) (List.subset_append_right ..)

end ObjcClasses

/-! ## SQLite -/

namespace SqliteWrapper

theorem callsIn_shown {v : Verbosity} {ls : List Line} (h : ∀ l ∈ ls, l.stmt.calls = []) :
    Stmt.callsIn (shown v ls) = [] := by
  apply Stmt.callsIn_eq_nil
  intro s hs
  obtain ⟨l, hl, rfl⟩ := List.mem_map.1 (shown_subset v ls hs)
  exact h l hl

theorem declared_mem_shown {v : Verbosity} {ls : List Line} {s : Stmt} {x : String × String}
    (h : always s ∈ ls) (hx : s.declared? = some x) : x ∈ Stmt.declaredIn (shown v ls) :=
  List.mem_filterMap.2 ⟨s, mem_shown_always h, hx⟩

/-- The lines before the call. -/
def preparation (p : Procedure) : List Line :=
  clearResult p ++ checkCount p ++ checkTypes p ++ argumentVariables p ++ dependencies p ++
    [remark .verbose "// 5. Call the procedure"]

/-- The lines after the call. -/
def completion (p : Procedure) : List Line :=
  always .blank :: (releaseInputs p ++ checkCode p ++ giveResult p ++ rejection p ++ release p)

theorem body_eq (p : Procedure) :
    body p = preparation p ++ always (.call (call p)) :: completion p := by
  simp [body, preparation, completion, performCall]

theorem shown_body (v : Verbosity) (p : Procedure) :
    shown v (body p) =
      shown v (preparation p) ++ .call (call p) :: shown v (completion p) := by
  rw [body_eq, shown_append, shown_always_cons]

theorem IsSideLine.calls {p : Procedure} {l : Line} (h : IsSideLine p l) : l.stmt.calls = [] := by
  cases h with
  | failure silent =>
    cases silent <;> simp [always, nullResult, Stmt.calls]
  | _ => rfl

theorem calls_preparation (p : Procedure) : ∀ l ∈ preparation p, l.stmt.calls = [] := by
  have hcount : ∀ l ∈ checkCount p, l.stmt.calls = [] := by
    simp [checkCount, remark, always, Stmt.calls]
  have htypes : ∀ l ∈ checkTypes p, l.stmt.calls = [] := by
    simp only [checkTypes, List.forall_mem_append, List.forall_mem_map]
    exact ⟨⟨by simp [remark, Stmt.calls], fun a _ => rfl⟩, by simp [always, Stmt.calls]⟩
  have hvariables : ∀ l ∈ argumentVariables p, l.stmt.calls = [] := by
    simp only [argumentVariables, List.forall_mem_append, List.forall_mem_map]
    exact ⟨⟨⟨by simp [remark, Stmt.calls], fun a _ => rfl⟩, fun a _ => rfl⟩,
      by simp [always, Stmt.calls]⟩
  simp only [preparation, List.forall_mem_append]
  exact ⟨⟨⟨⟨⟨fun l hl => (isSideLine_clearResult l hl).calls, hcount⟩, htypes⟩, hvariables⟩,
    fun l hl => (isSideLine_dependencies l hl).calls⟩, by simp [remark, Stmt.calls]⟩

theorem calls_completion (p : Procedure) : ∀ l ∈ completion p, l.stmt.calls = [] := by
  have hside : ∀ l ∈ completion p, IsSideLine p l := by
    simp only [completion, List.forall_mem_cons, List.forall_mem_append]
    exact ⟨.blank, ⟨⟨⟨isSideLine_releaseInputs, isSideLine_checkCode⟩, isSideLine_giveResult⟩,
      isSideLine_rejection⟩, isSideLine_release⟩
  exact fun l hl => (hside l hl).calls

/-- Every argument has a variable of its name. -/
theorem exists_variable {p : Procedure} {a : Argument} (ha : a ∈ p.args) :
    ∃ s, always s ∈ argumentVariables p ∧ s.declared? = some (a.storage, a.name) := by
  cases hread : a.binding.isInput with
  | true =>
    have hmem : a ∈ p.inArgs := List.mem_filter.2 ⟨ha, hread⟩
    obtain ⟨i, hi, rfl⟩ := List.getElem_of_mem hmem
    refine ⟨inputVariable p.inArgs[i] i, ?_, rfl⟩
    simp only [argumentVariables, List.mem_append, List.mem_map]
    refine .inl (.inl (.inr ⟨(p.inArgs[i], i), ?_, rfl⟩))
    exact List.mk_mem_zipIdx_iff_getElem?.2 (List.getElem?_eq_getElem hi)
  | false =>
    refine ⟨outputVariable a, ?_, rfl⟩
    simp only [argumentVariables, List.mem_append, List.mem_map]
    refine .inl (.inr ⟨a, List.mem_filter.2 ⟨ha, ?_⟩, rfl⟩)
    cases hb : a.binding <;> simp_all [Binding.isInput]

theorem always_mem_preparation {p : Procedure} {s : Stmt}
    (h : always s ∈ argumentVariables p ∨ always s ∈ dependencies p) :
    always s ∈ preparation p := by
  simp only [preparation, List.mem_append]
  rcases h with h | h
  · exact .inl (.inl (.inr h))
  · exact .inl (.inr h)

theorem callsByConvention (v : Verbosity) (name : String) {p : Procedure}
    (hobject : ∀ a ∈ p.args, a.type ≠ .object) : CallsByConvention p (function v name p) := by
  have hbefore : Stmt.declaredIn (shown v (preparation p)) ⊆
      (function v name p).scope (shown v (preparation p)) := List.subset_append_right ..
  have hdependency : ∀ {s : Stmt} {x : String × String}, always s ∈ dependencies p →
      s.declared? = some x → x ∈ (function v name p).scope (shown v (preparation p)) :=
    fun h hx => hbefore (declared_mem_shown (always_mem_preparation (.inr h)) hx)
  refine callsByConvention_of_body (shown_body v p) (callsIn_shown (calls_preparation p))
    (callsIn_shown (calls_completion p)) ⟨function_ofProcedure .., rfl, ?_, passesLeading ?_ ?_, ?_⟩
  · intro hcode
    have hcode : p.usesDatabase = true := hcode
    exact hdependency (s := .define "cql_code" "rc" (.name "SQLITE_OK"))
      (by simp [dependencies, hcode]) rfl
  · intro hcode
    cases hp : p.hasProjection with
    | true =>
      refine .declared "sqlite3 *_Nonnull" (by decide) (List.mem_append_left _ ?_)
      simp [function, params, hp, Param.plain]
    | false =>
      refine .declared "sqlite3*" (by decide) (hdependency (s := .define "sqlite3*" "db"
        (.call "sqlite3_context_db_handle" [.name "context"])) ?_ rfl)
      simp [dependencies, hcode, hp]
  · intro hplace
    refine .variable (hdependency (s := .define (p.name ++ "_result_set_ref") "_data_result_set_"
      (.name "NULL")) ?_ rfl)
    simp [dependencies, hplace]
  · have hargs : (call p).args = p.args.map callArg := rfl
    rw [hargs, List.forall₂_map_right_iff]
    refine List.forall₂_same.2 fun a ha => ?_
    obtain ⟨s, hs, hdeclared⟩ := exists_variable ha
    have hknown := hbefore (declared_mem_shown (always_mem_preparation (.inl hs)) hdeclared)
    have harg : callArg a = ⟨"", a.binding.isOutput, .value (.name a.name)⟩ := by
      have hne := hobject a ha
      cases hb : a.binding <;> cases ht : a.type <;> simp_all [callArg, Binding.isOutput]
    rw [harg]
    exact ⟨.none, rfl, _, rfl, .inScope hknown List.suffix_rfl⟩

end SqliteWrapper

/-! ## All files -/

namespace CallingFile

theorem inOrder_text (f : Function) : Text.InOrder [f.bodyText] f.text :=
  .before (.after _ (.self _)) _

theorem inOrder_stackedText (f : Function) : Text.InOrder [f.bodyText] f.stackedText :=
  .before (.after _ (.self _)) _

/-- What is between the braces of a calling function stands in the file. -/
theorem inOrder_caller (g : CallingFile) {s : Schema} {p : Procedure} (hp : p ∈ s.wrapped) :
    Text.InOrder [(g.caller p).bodyText] (g.target.text s) := by
  cases g with
  | objc o => exact .after _ (.join_of_mem hp (.after _ (inOrder_stackedText _)))
  | csharp o => exact .after _ (.join_of_mem hp (.after _ (inOrder_stackedText _)))
  | java o => exact .after _ (.join_of_mem hp (.after _ (inOrder_stackedText _)))
  | sqlite o =>
    have hordered : p ∈ SqliteExtension.ordered s := List.mem_mergeSort.2 hp
    exact .before (.after _ (.join_of_mem hordered (.before (.after _ (inOrder_text _)) _))) _

/-- Whatever the file, a procedure without arguments that are objects is called once and by the
convention, and the function that calls it is in the file of each schema that has the
procedure. -/
theorem caller_followsConvention (g : CallingFile) {p : Procedure}
    (hobject : ∀ a ∈ p.args, a.type ≠ .object) :
    CallsByConvention p (g.caller p) ∧
      ∀ s : Schema, p ∈ s.wrapped → Text.InOrder [(g.caller p).bodyText] (g.target.text s) := by
  refine ⟨?_, fun s hp => g.inOrder_caller hp⟩
  cases g with
  | objc o => exact ObjcClasses.callsByConvention hobject
  | csharp o => exact CSharpNative.callsByConvention o hobject
  | java o => exact JavaNative.callsByConvention o hobject
  | sqlite o => exact SqliteWrapper.callsByConvention o.verbosity _ hobject

/-- A procedure with a result set and arguments in all directions. -/
def transfer : Procedure :=
  ⟨"transfer",
    [⟨"account", .text, false, .inOut, none, false⟩, ⟨"amount", .real, false, .inOnly, none, false⟩,
      ⟨"note", .blob, true, .inOnly, none, false⟩, ⟨"number", .long, true, .outOnly, none, false⟩,
      ⟨"receipt", .text, true, .outOnly, none, false⟩],
    some [⟨"id", .integer, true, none, false⟩], [], some true, false⟩

theorem caller_followsConvention_transfer :
    (∀ a ∈ transfer.args, a.type ≠ .object) ∧
      let bank : Schema := ⟨[transfer], [], [], [], [], []⟩
      let java : CallingFile := .java ⟨"com.bank", "Bank", "com_bank.h", "bank.h"⟩
      let sqlite : CallingFile := .sqlite ⟨"bank.json", "bank.h", some "bank", .quiet⟩
      (CallsByConvention transfer (java.caller transfer) ∧
        Text.InOrder [(java.caller transfer).bodyText] (java.target.text bank)) ∧
      CallsByConvention transfer (sqlite.caller transfer) ∧
        Text.InOrder [(sqlite.caller transfer).bodyText] (sqlite.target.text bank) := by
  have hobject : ∀ a ∈ transfer.args, a.type ≠ .object := by decide
  have hwrapped : transfer ∈ (⟨[transfer], [], [], [], [], []⟩ : Schema).wrapped :=
    List.mem_filter.2 ⟨List.mem_cons_self, rfl⟩
  have hjava := caller_followsConvention (.java ⟨"com.bank", "Bank", "com_bank.h", "bank.h"⟩)
    hobject
  have hsqlite := caller_followsConvention (.sqlite ⟨"bank.json", "bank.h", some "bank", .quiet⟩)
    hobject
  exact ⟨hobject, ⟨hjava.1, hjava.2 _ hwrapped⟩, hsqlite.1, hsqlite.2 _ hwrapped⟩

end CallingFile

end CqlGlue
