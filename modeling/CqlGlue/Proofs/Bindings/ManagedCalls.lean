import CqlGlue.Bindings.CSharpNative
import CqlGlue.Bindings.JavaNative
import CqlGlue.Proofs.Bindings.Convention

/-!
# Calls from managed languages

The entry points of the C# and the Java bindings are made alike, and differ in what becomes of an
argument. So an entry point calls by the convention as soon as its language does for each
argument what the convention asks.

## Main statements
* `NativeStyle.callsByConvention` is the part that the languages share.
* `CSharpNative.callsByConvention` and `JavaNative.callsByConvention`: the two languages.
-/

namespace CqlGlue

open Code

namespace NativeStyle

variable {style : NativeStyle} {p : Procedure} {f : Function}

/-- The statements before the call. -/
def preparation (style : NativeStyle) (p : Procedure) : List Stmt :=
  style.locals p ++ style.notes ++ Stmt.setOff (p.args.flatMap fun a => (style.marshal a).before)

/-- The statements after the call. -/
def completion (style : NativeStyle) (p : Procedure) : List Stmt :=
  Stmt.setOff (p.args.flatMap fun a => (style.marshal a).after) ++ style.handover p

theorem body_eq (style : NativeStyle) (p : Procedure) :
    style.body p = style.preparation p ++ .call (style.call p) :: style.completion p := by
  simp [body, preparation, completion]

theorem declaredIn_locals (style : NativeStyle) (p : Procedure) :
    Stmt.declaredIn (style.locals p) =
      (if p.usesDatabase then [("cql_code", "rc")] else []) ++
      (if p.hasProjection then [(p.name ++ "_result_set_ref", style.resultSet)] else []) ++
      if ReturnRow.isEmpty p then []
      else [("cql_result_set_ref", style.outputs), (ReturnRow.rowType p, "row")] := by
  rw [locals, Stmt.declaredIn_append, Stmt.declaredIn_append]
  cases p.usesDatabase <;> cases p.hasProjection <;> cases ReturnRow.isEmpty p <;> rfl

theorem callsIn_locals (style : NativeStyle) (p : Procedure) :
    Stmt.callsIn (style.locals p) = [] := by
  rw [locals, Stmt.callsIn_append, Stmt.callsIn_append]
  cases p.usesDatabase <;> cases p.hasProjection <;> cases ReturnRow.isEmpty p <;> rfl

theorem callsIn_handover (style : NativeStyle) (p : Procedure) :
    Stmt.callsIn (style.handover p) = [] := by
  rw [handover]
  cases ReturnRow.isEmpty p <;> cases p.usesDatabase <;> cases p.hasProjection <;> rfl

/-- What the arguments of an entry point come to before the call is known at the call. -/
theorem declaredIn_preparation {a : Argument} (ha : a ∈ p.args) :
    Stmt.declaredIn (style.marshal a).before ⊆ Stmt.declaredIn (style.preparation p) := by
  refine Stmt.declaredIn_subset fun s hs => ?_
  rw [preparation, List.mem_append]
  exact .inr (Stmt.subset_setOff _ (List.mem_flatMap.2 ⟨a, ha, hs⟩))

theorem locals_subset_preparation (style : NativeStyle) (p : Procedure) :
    Stmt.declaredIn (style.locals p) ⊆ Stmt.declaredIn (style.preparation p) := by
  refine Stmt.declaredIn_subset fun s hs => ?_
  rw [preparation, List.append_assoc, List.mem_append]
  exact .inl hs

/-- The type and the name of the variable that holds an argument which is read. References and
values that may be missing have one, other values are passed as they come in. -/
def ownVariable (a : Argument) : Option (String × String) :=
  match a.type with
  | .text => some ("cql_string_ref", "str_ref_" ++ a.name)
  | .blob => some ("cql_blob_ref", "blob_ref_" ++ a.name)
  | _ => if a.isNotNull then none else some (a.type.nullableCType, "n_" ++ a.name)

theorem suffix_ownVariable {a : Argument} {x : String × String} (h : ownVariable a = some x) :
    a.name.toList <:+ x.2.toList := by
  rw [ownVariable] at h
  split at h
  · cases h
    exact suffix_append ..
  · cases h
    exact suffix_append ..
  · split at h
    · cases h
    · cases h
      exact suffix_append ..

/-- What is passed for an argument: the member of the row for one that is only written, else its own
variable, or its parameter where it has none. -/
def operandOf (a : Argument) : Operand :=
  .value (if a.binding == .outOnly then .member "row" a.name
    else .name ((ownVariable a).elim a.name Prod.snd))

/-- What a managed language has to do with an argument. One that is read comes in by parameters
of its own, one that is only written is a member of the row. -/
structure KeepsConvention (style : NativeStyle) (a : Argument) (params : List Param) : Prop where
  remark : IsGap (style.marshal a).passed.remark
  byAddress : (style.marshal a).passed.byAddress = a.binding.isOutput
  read : a.binding ≠ .outOnly → (style.marshal a).passed.operand =
    .value (.name ((ownVariable a).elim a.name Prod.snd))
  declared : a.binding ≠ .outOnly →
    ∀ x ∈ ownVariable a, x ∈ Stmt.declaredIn (style.marshal a).before
  parameter : ownVariable a = none → ∃ q ∈ params, q.name = a.name
  written : a.binding = .outOnly →
    (style.marshal a).passed.operand = .value (.member "row" a.name)
  before : Stmt.callsIn (style.marshal a).before = []
  after : Stmt.callsIn (style.marshal a).after = []

namespace KeepsConvention

variable {a : Argument} {params : List Param} {scope : List (String × String)}

/-- The parts of the convention follow from what is passed, what is declared and what is called. -/
theorem of_passed {gap : String} (hgap : IsGap gap)
    (hpassed : (style.marshal a).passed = ⟨gap, a.binding.isOutput, operandOf a⟩)
    (hdeclared : a.binding ≠ .outOnly →
      Stmt.declaredIn (style.marshal a).before = (ownVariable a).toList)
    (hparameter : ownVariable a = none → ∃ q ∈ params, q.name = a.name)
    (hcalls : Stmt.callsIn (style.marshal a).before = [] ∧
      Stmt.callsIn (style.marshal a).after = []) : KeepsConvention style a params where
  remark := by rwa [hpassed]
  byAddress := by rw [hpassed]
  read hread := by rw [hpassed, operandOf, if_neg (by simpa using hread)]
  declared hread x hx := by rwa [hdeclared hread, Option.mem_toList]
  parameter := hparameter
  written hwritten := by rw [hpassed, operandOf, if_pos (by simp [hwritten])]
  before := hcalls.1
  after := hcalls.2

theorem operandIsNamed (h : KeepsConvention style a params) (hread : a.binding ≠ .outOnly) :
    OperandIsNamed a params (style.marshal a) := by
  have hoperand := h.read hread
  cases hv : ownVariable a with
  | none =>
    rw [hv] at hoperand
    exact .parameter hoperand (h.parameter hv)
  | some x =>
    rw [hv] at hoperand
    exact ⟨x.2, hoperand, suffix_ownVariable hv, .inr ⟨x.1, h.declared hread x hv⟩⟩

theorem passes (h : KeepsConvention style a params) (ha : a ∈ p.args)
    (hparams : a.binding.isInput = true → ∀ q ∈ params, (q.type, q.name) ∈ scope)
    (hbefore : Stmt.declaredIn (style.marshal a).before ⊆ scope)
    (hrow : a.binding.isOutput = true → (ReturnRow.rowType p, "row") ∈ scope) :
    Passes p scope a (style.marshal a).passed := by
  refine ⟨h.remark, h.byAddress, ?_⟩
  by_cases hb : a.binding = .outOnly
  · have houtput : a.binding.isOutput = true := by rw [hb]; rfl
    exact ⟨_, h.written hb, .member (hrow houtput) (exists_member ha houtput)⟩
  · have hread : a.binding.isInput = true := by
      cases hbinding : a.binding <;> simp_all [Binding.isInput]
    exact (h.operandIsNamed hb).namesArgument (hparams hread) hbefore

end KeepsConvention

variable (style) in
/-- An entry point of a managed language calls by the convention if the language keeps it for
each argument and the entry point is handed the database. -/
theorem callsByConvention (paramsOf : Argument → List Param) (hbody : f.body = style.body p)
    (hdatabase : p.usesDatabase = true →
      ∃ type ∈ ["cql_int64", "jlong"], Param.plain type "__db" ∈ f.params)
    (hparams : ∀ a ∈ p.inArgs, paramsOf a ⊆ f.params) (hnotes : Stmt.callsIn style.notes = [])
    (h : ∀ a ∈ p.args, KeepsConvention style a (paramsOf a)) : CallsByConvention p f := by
  have hscope : ∀ q ∈ f.params, (q.type, q.name) ∈ f.scope (style.preparation p) := by
    intro q hq
    exact List.mem_append_left _ (List.mem_map.2 ⟨q, hq, rfl⟩)
  have hlocals : Stmt.declaredIn (style.locals p) ⊆ f.scope (style.preparation p) :=
    List.Subset.trans (locals_subset_preparation style p) (List.subset_append_right ..)
  refine callsByConvention_of_body (hbody.trans (body_eq style p)) ?_ ?_ ?_
  · simp [preparation, callsIn_locals, hnotes, Stmt.callsIn_flatMap fun a ha => (h a ha).before]
  · simp [completion, callsIn_handover, Stmt.callsIn_flatMap fun a ha => (h a ha).after]
  · refine ⟨function_ofProcedure .., rfl, ?_, passesLeading ?_ ?_, ?_⟩
    · intro hcode
      have hcode : p.usesDatabase = true := hcode
      exact hlocals (by simp [declaredIn_locals, hcode])
    · intro hcode
      obtain ⟨type, htype, hq⟩ := hdatabase hcode
      exact .number htype (hscope _ hq)
    · intro hplace
      exact .variable (hlocals (by simp [declaredIn_locals, hplace]))
    · have hargs : (style.call p).args = p.args.map fun a => (style.marshal a).passed := rfl
      rw [hargs, List.forall₂_map_right_iff]
      refine List.forall₂_same.2 fun a ha => (h a ha).passes ha ?_ ?_ ?_
      · intro hread q hq
        exact hscope q (hparams a (List.mem_filter.2 ⟨ha, hread⟩) hq)
      · exact List.Subset.trans (declaredIn_preparation ha) (List.subset_append_right ..)
      · intro houtput
        exact hlocals (by simp [declaredIn_locals, isEmpty_eq_false ha houtput])

end NativeStyle

namespace CSharpNative

theorem isGap_remark (a : Argument) : IsGap (remark a) := by
  have hopen : " /*" = " " ++ "/*" := by decide
  have hclose : "*/ " = "*/" ++ (" " ++ "") := by decide
  rw [remark, hopen, hclose]
  simpa only [String.append_assoc] using ((CqlGlue.isGap_remark a.binding).1.append
    IsGap.none.blank).blank

theorem passed_marshal {a : Argument} (hobject : a.type ≠ .object) :
    (marshal a).passed = ⟨remark a, a.binding.isOutput, NativeStyle.operandOf a⟩ := by
  obtain ⟨name, type, notNull, binding, kind, isSensitive⟩ := a
  cases type with
  | object => exact absurd rfl hobject
  | _ => cases binding <;> cases notNull <;> rfl

theorem declaredIn_marshal {a : Argument} (hobject : a.type ≠ .object)
    (hread : a.binding ≠ .outOnly) :
    Stmt.declaredIn (marshal a).before = (NativeStyle.ownVariable a).toList := by
  obtain ⟨name, type, notNull, binding, kind, isSensitive⟩ := a
  cases binding with
  | outOnly => exact absurd rfl hread
  | inOnly | inOut =>
    cases type with
    | object => exact absurd rfl hobject
    | _ => cases notNull <;> rfl

theorem callsIn_marshal (a : Argument) :
    Stmt.callsIn (marshal a).before = [] ∧ Stmt.callsIn (marshal a).after = [] := by
  obtain ⟨name, type, notNull, binding, kind, isSensitive⟩ := a
  cases binding <;> cases type <;> cases notNull <;> exact ⟨rfl, rfl⟩

theorem keepsConvention {a : Argument} (hobject : a.type ≠ .object) :
    style.KeepsConvention a (paramsOf a) := by
  refine .of_passed (isGap_remark a) (passed_marshal hobject) (declaredIn_marshal hobject)
    (fun hnone => ?_) (callsIn_marshal a)
  -- an argument without a variable is no value that may be missing, which comes in by two
  cases ht : a.type <;> cases hn : a.isNotNull <;>
    simp_all [NativeStyle.ownVariable, paramsOf, Argument.isNullableValue, Param.plain]

theorem callsByConvention (o : Options) {p : Procedure}
    (hobject : ∀ a ∈ p.args, a.type ≠ .object) : CallsByConvention p (entryPoint o p) := by
  refine style.callsByConvention paramsOf rfl ?_ ?_ rfl
    fun a ha => keepsConvention (hobject a ha)
  · intro h
    exact ⟨"cql_int64", by decide, by simp [entryPoint, params, h]⟩
  · intro a ha q hq
    exact List.mem_append_right _ (List.mem_flatMap.2 ⟨a, ha, hq⟩)

end CSharpNative

namespace JavaNative

/-- The parameter of an argument. -/
def paramOf (a : Argument) : Param := .plain (paramType a.type a.isNotNull) a.name

theorem passed_marshal {a : Argument} (hobject : a.type ≠ .object) :
    (marshal a).passed =
      ⟨"/* " ++ a.binding.name ++ " */", a.binding.isOutput, NativeStyle.operandOf a⟩ := by
  obtain ⟨name, type, notNull, binding, kind, isSensitive⟩ := a
  cases type with
  | object => exact absurd rfl hobject
  | _ => cases binding <;> cases notNull <;> rfl

theorem declaredIn_marshal {a : Argument} (hobject : a.type ≠ .object)
    (hread : a.binding ≠ .outOnly) :
    Stmt.declaredIn (marshal a).before = (NativeStyle.ownVariable a).toList := by
  obtain ⟨name, type, notNull, binding, kind, isSensitive⟩ := a
  cases binding with
  | outOnly => exact absurd rfl hread
  | inOnly | inOut =>
    cases type with
    | object => exact absurd rfl hobject
    | _ => cases notNull <;> rfl

theorem callsIn_marshal (a : Argument) :
    Stmt.callsIn (marshal a).before = [] ∧ Stmt.callsIn (marshal a).after = [] := by
  obtain ⟨name, type, notNull, binding, kind, isSensitive⟩ := a
  cases binding <;> cases type <;> cases notNull <;> exact ⟨rfl, rfl⟩

theorem keepsConvention {a : Argument} (hobject : a.type ≠ .object) :
    style.KeepsConvention a [paramOf a] :=
  .of_passed (isGap_remark a.binding).2 (passed_marshal hobject) (declaredIn_marshal hobject)
    (fun _ => ⟨paramOf a, List.mem_singleton_self _, rfl⟩) (callsIn_marshal a)

theorem callsByConvention (o : Options) {p : Procedure}
    (hobject : ∀ a ∈ p.args, a.type ≠ .object) : CallsByConvention p (entryPoint o p) := by
  refine style.callsByConvention (fun a => [paramOf a]) rfl ?_ ?_ rfl
    fun a ha => keepsConvention (hobject a ha)
  · intro h
    exact ⟨"jlong", by decide, by simp [entryPoint, params, h]⟩
  · intro a ha q hq
    rw [List.mem_singleton] at hq
    subst hq
    exact List.mem_append_right _ (List.mem_append_right _ (List.mem_map.2 ⟨a, ha, rfl⟩))

end JavaNative

end CqlGlue
