import CqlGlue.Bindings.NativeEntry
import CqlGlue.Proofs.Code.Calls
import CqlGlue.Proofs.Text.InOrder
import Mathlib.Data.List.Forall2

/-!
# The convention for calls of procedures

How generated C code calls a procedure. A procedure with a result set is called by a function of
its own; the result code is kept where there is one; what is passed are the database and the
place of the result set, each where the procedure has it, and one expression for each argument,
by address where the procedure writes to it.

## Main definitions
* `FollowsConvention` is the convention for a call among names that are known.
* `CallsByConvention` says of a function that it makes one call, by the convention.

## Main statements
* `callsByConvention_of_body`: the only call of a function, if it follows the convention, is
  printed by it.
-/

namespace CqlGlue

open Code

/-! ## The convention -/

/-- An expression for the database: what is declared as one, or the number that a managed
caller passes for it. -/
inductive IsDatabase (scope : List (String × String)) : Expr → Prop where
  | declared (type : String) {name : String} (htype : type ∈ ["sqlite3 *_Nonnull", "sqlite3*"])
      (h : (type, name) ∈ scope) : IsDatabase scope (.name name)
  | number {type : String} (htype : type ∈ ["cql_int64", "jlong"])
      (h : (type, "__db") ∈ scope) : IsDatabase scope (.cast "sqlite3*" (.name "__db"))

/-- An expression for the place of the result set of a procedure. -/
inductive IsResultSetPlace (p : Procedure) (scope : List (String × String)) : Expr → Prop where
  | variable {name : String} (h : (p.name ++ "_result_set_ref", name) ∈ scope) :
      IsResultSetPlace p scope (.address (.name name))

/-- An expression for an argument: a parameter or a variable that is called after it, or the
member of the return row that has its name. -/
inductive NamesArgument (p : Procedure) (scope : List (String × String)) (a : Argument) :
    Expr → Prop where
  | inScope {type name : String} (h : (type, name) ∈ scope)
      (hname : a.name.toList <:+ name.toList) : NamesArgument p scope a (.name name)
  | member (hrow : (ReturnRow.rowType p, "row") ∈ scope)
      (h : ∃ m ∈ ReturnRow.members p, m.name = a.name) :
      NamesArgument p scope a (.member "row" a.name)

/-- What is passed for an argument. -/
structure Passes (p : Procedure) (scope : List (String × String)) (a : Argument) (x : CallArg) :
    Prop where
  remark : IsGap x.remark
  byAddress : x.byAddress = a.binding.isOutput
  operand : ∃ e, x.operand = .value e ∧ NamesArgument p scope a e

/-- What is passed before the arguments. -/
def PassesLeading (p : Procedure) (scope : List (String × String)) (es : List Expr) : Prop :=
  ∃ database place : Option Expr, es = database.toList ++ place.toList ∧
    (database.isSome = p.usesDatabase ∧ ∀ e ∈ database, IsDatabase scope e) ∧
    (place.isSome = p.hasProjection ∧ ∀ e ∈ place, IsResultSetPlace p scope e)

/-- A call of a procedure, among names that are known with their types. -/
structure FollowsConvention (p : Procedure) (scope : List (String × String)) (c : ProcCall) :
    Prop where
  function : c.function = if p.hasProjection then p.name ++ "_fetch_results" else p.name
  keepsCode : c.keepsCode = p.usesDatabase
  code_mem : c.keepsCode = true → ("cql_code", "rc") ∈ scope
  leading : PassesLeading p scope c.leading
  args : List.Forall₂ (Passes p scope) p.args c.args

/-- A function calls a procedure once and by the convention, and this is how the call is
printed. -/
def CallsByConvention (p : Procedure) (f : Function) : Prop :=
  ∃ before c after, f.body = before ++ .call c :: after ∧ Stmt.callsIn (before ++ after) = [] ∧
    FollowsConvention p (f.scope before) c ∧
    ∃ expressions, CommaSeparated c.expressions expressions ∧
      Text.InOrder [(if c.keepsCode then "rc = " else "") ++ c.function ++ "(" ++ expressions ++
        ");\n"] f.bodyText

/-! ## Parts of the convention -/

theorem function_ofProcedure (p : Procedure) (leading : List Expr) (args : List CallArg)
    (layout : CallLayout) :
    (ProcCall.ofProcedure p leading args layout).function =
      if p.hasProjection then p.name ++ "_fetch_results" else p.name := by
  have h : (ProcCall.ofProcedure p leading args layout).function =
      p.name ++ if p.hasProjection then "_fetch_results" else "" := rfl
  rw [h]
  cases p.hasProjection <;> simp

theorem passesLeading {p : Procedure} {scope : List (String × String)} {database place : Expr}
    (hdatabase : p.usesDatabase = true → IsDatabase scope database)
    (hplace : p.hasProjection = true → IsResultSetPlace p scope place) :
    PassesLeading p scope ((if p.usesDatabase then [database] else []) ++
      if p.hasProjection then [place] else []) := by
  refine ⟨if p.usesDatabase then some database else none,
    if p.hasProjection then some place else none, ?_, ⟨?_, ?_⟩, ?_, ?_⟩
  · cases p.usesDatabase <;> cases p.hasProjection <;> rfl
  · cases p.usesDatabase <;> rfl
  · cases h : p.usesDatabase with
    | false => simp
    | true => simpa using hdatabase h
  · cases p.hasProjection <;> rfl
  · cases h : p.hasProjection with
    | false => simp
    | true => simpa using hplace h

theorem isGap_indent_one : IsGap (Stmt.indent 1) := by
  have h : Stmt.indent 1 = " " ++ (" " ++ "") := by decide
  rw [h]
  exact IsGap.none.blank.blank

/-- The only call of a function, if it follows the convention, is printed by it. -/
theorem callsByConvention_of_body {p : Procedure} {f : Function} {before after : List Stmt}
    {c : ProcCall} (hbody : f.body = before ++ .call c :: after)
    (hbefore : Stmt.callsIn before = []) (hafter : Stmt.callsIn after = [])
    (h : FollowsConvention p (f.scope before) c) : CallsByConvention p f := by
  have hremarks : ∀ x ∈ c.args, IsGap x.remark := by
    intro x hx
    obtain ⟨i, hi, rfl⟩ := List.getElem_of_mem hx
    have hi' : i < p.args.length := h.args.length_eq ▸ hi
    exact (h.args.get hi' hi).remark
  obtain ⟨text, htext, hlines⟩ := ProcCall.exists_commaSeparated hremarks isGap_indent_one
  refine ⟨before, c, after, hbody, by simp [hbefore, hafter], h, text, htext, ?_⟩
  have hcall : (Stmt.call c).lines 1 = c.lines (Stmt.indent 1) := by rw [Stmt.lines]
  rw [Function.bodyText_eq hbody, hcall, hlines, ProcCall.opening]
  have hpad : unlines (Stmt.linesOf 1 before) ++
      (Stmt.indent 1 ++ ((if c.keepsCode then "rc = " else "") ++ c.function ++ "(") ++ text ++
        ");\n") =
      unlines (Stmt.linesOf 1 before) ++ Stmt.indent 1 ++
        ((if c.keepsCode then "rc = " else "") ++ c.function ++ "(" ++ text ++ ");\n") := by
    simp only [String.append_assoc]
  rw [hpad]
  exact ((Text.InOrder.self _).after _).before _

/-! ## Arguments -/

/-- The operand for an argument that is a variable, called after the argument, which is a
parameter or is declared by what the argument comes to before the call. -/
def OperandIsNamed (a : Argument) (params : List Param) (m : Marshalled) : Prop :=
  ∃ name, m.passed.operand = .value (.name name) ∧ a.name.toList <:+ name.toList ∧
    ((∃ q ∈ params, q.name = name) ∨ ∃ type, (type, name) ∈ Stmt.declaredIn m.before)

theorem suffix_append (s t : String) : t.toList <:+ (s ++ t).toList := by
  rw [String.toList_append]
  exact List.suffix_append ..

theorem OperandIsNamed.declared {a : Argument} {params : List Param} {m : Marshalled}
    (type namePrefix : String) (hoperand : m.passed.operand = .value (.name (namePrefix ++ a.name)))
    (h : (type, namePrefix ++ a.name) ∈ Stmt.declaredIn m.before) : OperandIsNamed a params m :=
  ⟨_, hoperand, suffix_append .., .inr ⟨type, h⟩⟩

theorem OperandIsNamed.parameter {a : Argument} {params : List Param} {m : Marshalled}
    (hoperand : m.passed.operand = .value (.name a.name))
    (h : ∃ q ∈ params, q.name = a.name) : OperandIsNamed a params m :=
  ⟨_, hoperand, List.suffix_rfl, .inl h⟩

theorem OperandIsNamed.namesArgument {p : Procedure} {scope : List (String × String)}
    {a : Argument} {params : List Param} {m : Marshalled} (h : OperandIsNamed a params m)
    (hparams : ∀ q ∈ params, (q.type, q.name) ∈ scope)
    (hbefore : Stmt.declaredIn m.before ⊆ scope) :
    ∃ e, m.passed.operand = .value e ∧ NamesArgument p scope a e := by
  obtain ⟨name, hoperand, hname, ⟨q, hq, rfl⟩ | ⟨type, hdeclared⟩⟩ := h
  · exact ⟨_, hoperand, .inScope (hparams q hq) hname⟩
  · exact ⟨_, hoperand, .inScope (hbefore hdeclared) hname⟩

/-! ## Remarks -/

theorem star_not_mem_name (b : Binding) : '*' ∉ b.name.toList := by cases b <;> decide

/-- The direction of an argument as a comment, with blanks inside or outside. -/
theorem isGap_remark (b : Binding) :
    IsGap ("/*" ++ b.name ++ "*/") ∧ IsGap ("/* " ++ b.name ++ " */") := by
  have hopen : "/* " = "/*" ++ " " := by decide
  have hclose : " */" = " " ++ "*/" := by decide
  refine ⟨?_, ?_⟩
  · simpa using IsGap.none.comment b.name (star_not_mem_name b)
  · have hspaced : '*' ∉ (" " ++ b.name ++ " ").toList := by
      simp [star_not_mem_name b]
    rw [hopen, hclose]
    simpa only [String.append_assoc, String.append_empty] using
      IsGap.none.comment (" " ++ b.name ++ " ") hspaced

/-! ## The return row -/

theorem exists_member {p : Procedure} {a : Argument} (ha : a ∈ p.args)
    (houtput : a.binding.isOutput = true) : ∃ m ∈ ReturnRow.members p, m.name = a.name := by
  have hmem : a ∈ p.outArgs := List.mem_filter.2 ⟨ha, houtput⟩
  refine ⟨ReturnRow.Member.ofArgument a, ?_, rfl⟩
  rw [ReturnRow.members, ReturnRow.valueMembers, ReturnRow.referenceMembers]
  simp only [List.mem_append, List.mem_map, List.mem_filter]
  cases href : a.type.isRef with
  | false => exact .inl (.inl ⟨a, ⟨hmem, by simp [href]⟩, rfl⟩)
  | true => exact .inr (.inl ⟨a, ⟨hmem, href⟩, rfl⟩)

theorem isEmpty_eq_false {p : Procedure} {a : Argument} (ha : a ∈ p.args)
    (houtput : a.binding.isOutput = true) : ReturnRow.isEmpty p = false := by
  have hpos : 0 < p.outArgs.length := List.length_pos_of_mem (List.mem_filter.2 ⟨ha, houtput⟩)
  simp only [ReturnRow.isEmpty, ReturnRow.fieldCount, beq_eq_false_iff_ne]
  omega

end CqlGlue
