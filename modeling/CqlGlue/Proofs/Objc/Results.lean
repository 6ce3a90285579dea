import CqlGlue.Proofs.Bindings.Names
import CqlGlue.Proofs.Code.Writes
import CqlGlue.Proofs.Objc.Classes

/-!
# Setting the properties of a result

An entry point gives back an object that was made before the procedure was called, and behind the
call sets each of its properties once: those of arguments from the variables whose addresses were
passed, the result code from the code that the call gave back, and the result set from an object
that takes the place of the result set that the call filled in.

## Main definitions
* `Sets` says that a property is set from a declared variable.
* `FillsResult` and `HandsOverResult` are what an entry point does with the object.

## Main statements
* `handsOverResult` is about all runs of all entry points that give back an object.
-/

namespace CqlGlue.ObjcClasses

open Code ObjcClass

/-! ## What has to happen -/

/-- An expression is the value of a variable, as it is, cast, or boxed unless it is null. -/
inductive IsFrom (source : String) : Expr → Prop
  | self : IsFrom source (.name source)
  | cast (type : String) {e : Expr} (h : IsFrom source e) : IsFrom source (.cast type e)
  | boxed : IsFrom source (.choice (.property source "is_null") (.name "NULL")
      (.boxed (.property source "value")))

/-- Among some steps of a function a property of the result is set from a variable that the
function declares. -/
def Sets (f : Function) (steps : List Step) (name source : String) : Prop :=
  (∃ value, .done (.assign (.property "_result" name) value) ∈ steps ∧ IsFrom source value) ∧
    ∃ type, (type, source) ∈ f.scope f.body

/-- The steps before and after a call fill the result of a procedure. -/
structure FillsResult (p : Procedure) (f : Function) (before : List Step) (c : ProcCall)
    (after : List Step) : Prop where
  /-- Nothing is set before the call, or by it. -/
  untouched : writes "_result" (before ++ [.done (.call c)]) = []
  /-- Each property that the interface promises is set once. -/
  once : ∀ legacy, ∀ r ∈ (returnInterface legacy p).promises,
    (writes "_result" after).count r.signature.name = 1 ∧
      ∃ source, Sets f after r.signature.name source
  /-- What is given back is set from the variable whose address is passed. -/
  outputs : List.Forall₂ (fun a passed => a.binding.isOutput = true → passed.byAddress = true ∧
    ∃ source, passed.operand = .value (.name source) ∧ Sets f after a.name source) p.args c.args
  code : p.usesDatabase = true → c.keepsCode = true ∧ Sets f after "resultCode" "rc"
  /-- The result set is set from the object that holds what the call filled in. -/
  resultSet : p.hasProjection = true → Sets f after "resultSet" "rs" ∧
    ∃ source, .address (.name source) ∈ c.leading ∧
      .done (.assign (.property "rs" "resultSet") (.name source)) ∈ after

/-- The runs of an entry point call the procedure once and fill the result behind the call. -/
def HandsOverResult (p : Procedure) : Prop :=
  ∀ holds : Outcomes, ∃ before after,
    ((function p).run holds).steps = before ++ .done (.call (call p)) :: after ∧
      FillsResult p (function p) before (call p) after

/-! ## Arguments -/

/-- What an entry point does with an argument that is no object. -/
structure Conveys (a : Argument) : Prop where
  plain_before : ∀ s ∈ (marshal a).before, s.isPlain = true
  plain_after : ∀ s ∈ (marshal a).after, s.isPlain = true
  before : (marshal a).before.flatMap (Stmt.writes "_result") = []
  passed : (marshal a).passed.writes "_result" = []
  after : (marshal a).after.flatMap (Stmt.writes "_result") =
    if a.binding.isOutput then [a.name] else []
  output : a.binding.isOutput = true → (marshal a).passed.byAddress = true ∧
    ∃ source value, (marshal a).passed.operand = .value (.name source) ∧
      .assign (.property "_result" a.name) value ∈ (marshal a).after ∧ IsFrom source value ∧
      ((a.storage, source) ∈ Stmt.declaredIn (marshal a).before ∨
        a.binding.isInput = true ∧ source = a.name)

theorem mem_declaredIn_marshal {a : Argument}
    (h : a.binding = .outOnly ∨ a.isNotNull = false ∨ a.type.isRef = true) :
    (a.storage, "tmp_" ++ a.name) ∈ Stmt.declaredIn (marshal a).before := by
  have hsub : temporary a ⊆ (marshal a).before := by
    cases ht : a.type <;> cases hn : a.isNotNull <;> simp [marshal, ht, hn]
  exact Stmt.declaredIn_subset hsub (mem_declaredIn_temporary h)

theorem conveys {a : Argument} (hobject : a.type ≠ .object) : Conveys a := by
  obtain ⟨x, type, notNull, binding, kind, sensitive⟩ := a
  constructor
  case plain_before =>
    apply List.all_eq_true.1
    cases binding <;> cases type <;> cases notNull <;> rfl
  case plain_after =>
    apply List.all_eq_true.1
    cases binding <;> cases type <;> cases notNull <;> rfl
  case before => cases binding <;> cases type <;> cases notNull <;> rfl
  case passed => cases binding <;> cases type <;> cases notNull <;> rfl
  case after =>
    cases binding <;> cases type <;> cases notNull <;> first | rfl | exact absurd rfl hobject
  case output =>
    intro houtput
    have hdeclared := @mem_declaredIn_marshal ⟨x, type, notNull, binding, kind, sensitive⟩
    cases type with
    | object => exact absurd rfl hobject
    | text | blob =>
      cases binding with
      | inOnly => cases houtput
      | outOnly | inOut =>
        exact ⟨rfl, "tmp_" ++ x, _, rfl, List.mem_singleton_self _, .cast _ .self,
          .inl (hdeclared (.inr (.inr rfl)))⟩
    | bool | integer | long | real =>
      cases notNull with
      | false =>
        cases binding with
        | inOnly => cases houtput
        | outOnly | inOut =>
          exact ⟨rfl, "tmp_" ++ x, _, rfl, List.mem_singleton_self _, .boxed,
            .inl (hdeclared (.inr (.inl rfl)))⟩
      | true =>
        cases binding with
        | inOnly => cases houtput
        | outOnly =>
          exact ⟨rfl, "tmp_" ++ x, _, rfl, List.mem_singleton_self _, .self,
            .inl (hdeclared (.inl rfl))⟩
        | inOut => exact ⟨rfl, x, _, rfl, List.mem_singleton_self _, .self, .inr ⟨rfl, rfl⟩⟩

/-! ## Runs -/

variable {p : Procedure}

/-- What an entry point sets besides arguments. -/
def filling (p : Procedure) : List Stmt :=
  (if p.usesDatabase then [Stmt.assign (.property "_result" "resultCode") (.name "rc")] else []) ++
  if p.hasProjection then
    let rs := resultSetClass p.name
    [Stmt.note ("// " ++ rs ++ " takes over result_set_ref, it knows to clean it up"),
      .definePointer rs "rs" (.message (.name rs) "new"),
      .assign (.property "rs" "resultSet") (.name "_result_set_ref"),
      .assign (.property "_result" "resultSet") (.name "rs")]
  else []

theorem handover_eq (h : hasReturn p = true) :
    handover p = filling p ++ [Stmt.leave (some (.name "_result"))] := by
  rw [handover, if_pos h, filling]

/-- The statements before the call. -/
def preparation (p : Procedure) : List Stmt :=
  locals p ++ Stmt.setOff (p.args.flatMap fun a => (marshal a).before)

/-- The statements behind the call, up to the end. -/
def completion (p : Procedure) : List Stmt :=
  .blank :: (Stmt.setOff (p.args.flatMap fun a => (marshal a).after) ++ filling p)

theorem body_eq (h : hasReturn p = true) :
    body p = preparation p ++ .call (call p) :: completion p ++
      [Stmt.leave (some (.name "_result"))] := by
  rw [body, handover_eq h, preparation, completion]
  simp

/-- Where an object is given back, a run carries out the statements in order and returns. -/
theorem run_function (holds : Outcomes) (hreturn : hasReturn p = true)
    (h : ∀ a ∈ p.args, Conveys a) :
    (function p).run holds = ⟨.returned, (preparation p).map .done ++
      Step.done (.call (call p)) :: (completion p).map .done⟩ := by
  have hlocals : ∀ s ∈ locals p, s.isPlain = true := by
    rw [locals]
    cases p.usesDatabase <;> cases p.hasProjection <;> cases hasReturn p <;>
      simp [Stmt.isPlain, Stmt.define, Stmt.definePointer]
  have hfilling : ∀ s ∈ filling p, s.isPlain = true := by
    rw [filling]
    cases p.usesDatabase <;> cases p.hasProjection <;> simp [Stmt.isPlain, Stmt.definePointer]
  have hplain : ∀ s ∈ preparation p ++ .call (call p) :: completion p, s.isPlain = true := by
    rw [preparation, completion, List.forall_mem_append, List.forall_mem_append,
      List.forall_mem_cons, List.forall_mem_cons, List.forall_mem_append]
    refine ⟨⟨hlocals, Stmt.isPlain_setOff ?_⟩, rfl, rfl, Stmt.isPlain_setOff ?_, hfilling⟩
    · exact List.forall_mem_flatMap.2 fun a ha => (h a ha).plain_before
    · exact List.forall_mem_flatMap.2 fun a ha => (h a ha).plain_after
  change Stmt.runAll holds (body p) _ = _
  rw [body_eq hreturn, Stmt.runAll_append, Stmt.runAll_plain hplain, Stmt.runAll_cons,
    Stmt.run_leave, Stmt.runAll_nil]
  simp

/-! ## Writes -/

theorem writes_preparation (h : ∀ a ∈ p.args, Conveys a) :
    writes "_result" ((preparation p).map .done ++ [Step.done (.call (call p))]) = [] := by
  have hlocals : (locals p).flatMap (Stmt.writes "_result") = [] := by
    rw [locals]
    cases p.usesDatabase <;> cases p.hasProjection <;> cases hasReturn p <;> rfl
  have hbefore : (p.args.flatMap fun a => (marshal a).before.flatMap (Stmt.writes "_result")) =
      [] := List.flatMap_eq_nil_iff.2 fun a ha => (h a ha).before
  have hleading : ∀ e ∈ (call p).leading, e.addressed.filterMap (Expr.fieldOf? "_result") = [] := by
    simp only [call, ProcCall.ofProcedure]
    cases p.usesDatabase <;> cases p.hasProjection <;> simp [Expr.addressed, Expr.fieldOf?]
  have hcall : (Stmt.call (call p)).writes "_result" = [] := by
    rw [writes_call _ hleading]
    change (p.args.map fun a => (marshal a).passed).flatMap _ = []
    rw [List.flatMap_map]
    exact List.flatMap_eq_nil_iff.2 fun a ha => (h a ha).passed
  rw [writes_append, writes_map_done, preparation, List.flatMap_append, hlocals,
    flatMap_writes_setOff, List.flatMap_assoc, hbefore, writes_done, hcall]
  rfl

/-- Behind the call an entry point sets what the class of the result keeps. -/
theorem writes_completion (h : ∀ a ∈ p.args, Conveys a) :
    writes "_result" ((completion p).map .done) = (returnFields p).map Prod.snd := by
  have hafter : (p.args.flatMap fun a => (marshal a).after.flatMap (Stmt.writes "_result")) =
      p.outArgs.map (·.name) := by
    rw [List.flatMap_congr fun a ha => (h a ha).after,
      flatMap_ite (fun a : Argument => a.binding.isOutput) (fun a => [a.name]),
      ← List.map_eq_flatMap]
    rfl
  have hfilling : (filling p).flatMap (Stmt.writes "_result") = ownProperties p := by
    rw [filling, ownProperties]
    cases p.usesDatabase <;> cases p.hasProjection <;> rfl
  rw [writes_map_done, completion, List.flatMap_cons, List.flatMap_append, flatMap_writes_setOff,
    List.flatMap_assoc, hafter, hfilling, map_snd_returnFields]
  rfl

/-! ## Results -/

/-- What a statement of an entry point declares is in its scope. -/
theorem declaredIn_subset_scope {ss : List Stmt} (h : ss ⊆ body p) :
    Stmt.declaredIn ss ⊆ (function p).scope (function p).body :=
  List.Subset.trans (Stmt.declaredIn_subset h) (List.subset_append_right ..)

theorem sets_argument (h : ∀ a ∈ p.args, Conveys a) {a : Argument} (ha : a ∈ p.args)
    (houtput : a.binding.isOutput = true) : (marshal a).passed.byAddress = true ∧
      ∃ source, (marshal a).passed.operand = .value (.name source) ∧
        Sets (function p) ((completion p).map .done) a.name source := by
  obtain ⟨haddress, source, value, hoperand, hassign, hfrom, hdeclared⟩ := (h a ha).output houtput
  refine ⟨haddress, source, hoperand, ⟨value, List.mem_map_of_mem ?_, hfrom⟩, ?_⟩
  · refine List.mem_cons_of_mem _ (List.mem_append_left _ (Stmt.subset_setOff _ ?_))
    exact List.mem_flatMap.2 ⟨a, ha, hassign⟩
  · obtain hdeclared | ⟨hinput, rfl⟩ := hdeclared
    · refine ⟨a.storage, declaredIn_subset_scope (fun s hs => ?_) hdeclared⟩
      have hmem : s ∈ Stmt.setOff (p.args.flatMap fun a => (marshal a).before) :=
        Stmt.subset_setOff _ (List.mem_flatMap.2 ⟨a, ha, hs⟩)
      simp [body, hmem]
    · have hparam : Param.plain (valueType a.type a.isNotNull) a.name ∈ params p :=
        List.mem_append_right _ (List.mem_map.2 ⟨a, List.mem_filter.2 ⟨ha, hinput⟩, rfl⟩)
      exact ⟨_, List.mem_append_left _ (List.mem_map_of_mem hparam)⟩

theorem sets_resultCode (hdatabase : p.usesDatabase = true) :
    Sets (function p) ((completion p).map .done) "resultCode" "rc" := by
  have hlocals : locals p ⊆ body p := fun s hs => by simp [body, hs]
  refine ⟨⟨.name "rc", List.mem_map_of_mem ?_, .self⟩, "cql_code", ?_⟩
  · refine List.mem_cons_of_mem _ (List.mem_append_right _ ?_)
    simp [filling, hdatabase]
  · refine declaredIn_subset_scope hlocals ?_
    simp [declaredIn_locals, hdatabase]

theorem sets_resultSet (hprojection : p.hasProjection = true) :
    Sets (function p) ((completion p).map .done) "resultSet" "rs" ∧
      .done (.assign (.property "rs" "resultSet") (.name "_result_set_ref")) ∈
        (completion p).map Step.done := by
  have hreturn : hasReturn p = true := by simp [hasReturn, hprojection]
  have hfilling : filling p ⊆ completion p := fun s hs =>
    List.mem_cons_of_mem _ (List.mem_append_right _ hs)
  have hbody : filling p ⊆ body p := fun s hs => by simp [body, handover_eq hreturn, hs]
  refine ⟨⟨⟨.name "rs", List.mem_map_of_mem (hfilling ?_), .self⟩, resultSetClass p.name, ?_⟩,
    List.mem_map_of_mem (hfilling ?_)⟩
  · simp [filling, hprojection]
  · refine declaredIn_subset_scope hbody (List.mem_filterMap.2
      ⟨.definePointer (resultSetClass p.name) "rs"
        (.message (.name (resultSetClass p.name)) "new"), ?_, rfl⟩)
    simp [filling, hprojection]
  · simp [filling, hprojection]

/-- Each property of a result is set, whatever it stands for. -/
theorem exists_sets (h : ∀ a ∈ p.args, Conveys a) {name : String}
    (hname : name ∈ (returnFields p).map Prod.snd) :
    ∃ source, Sets (function p) ((completion p).map .done) name source := by
  rw [map_snd_returnFields, ownProperties, List.mem_append, List.mem_append] at hname
  obtain hname | hname | hname := hname
  · obtain ⟨a, ha, rfl⟩ := List.mem_map.1 hname
    obtain ⟨ha, houtput⟩ := List.mem_filter.1 ha
    obtain ⟨-, source, -, hsets⟩ := sets_argument h ha houtput
    exact ⟨source, hsets⟩
  · cases hdatabase : p.usesDatabase with
    | false => simp [hdatabase] at hname
    | true =>
      obtain rfl : name = "resultCode" := by simpa [hdatabase] using hname
      exact ⟨"rc", sets_resultCode hdatabase⟩
  · cases hprojection : p.hasProjection with
    | false => simp [hprojection] at hname
    | true =>
      obtain rfl : name = "resultSet" := by simpa [hprojection] using hname
      exact ⟨"rs", (sets_resultSet hprojection).1⟩

/-- An entry point that gives back an object hands over a filled one, where no argument is an
object and the properties have distinct names. -/
theorem handsOverResult (hreturn : hasReturn p = true) (hargs : (p.args.map (·.name)).Nodup)
    (hown : ∀ a ∈ p.outArgs, a.name ∉ ownProperties p) (hobject : ∀ a ∈ p.args, a.type ≠ .object) :
    HandsOverResult p := by
  intro holds
  have h : ∀ a ∈ p.args, Conveys a := fun a ha => conveys (hobject a ha)
  have hnames : ((returnFields p).map Prod.snd).Nodup :=
    nodup_returnFields_iff.2 ⟨List.Sublist.nodup (List.filter_sublist.map _) hargs, hown⟩
  refine ⟨_, _, congrArg Run.steps (run_function holds hreturn h), ?_⟩
  constructor
  · exact writes_preparation h
  · intro legacy r hr
    have hname : r.signature.name ∈ (returnFields p).map Prod.snd :=
      map_name_returnInterface legacy p ▸ List.mem_map_of_mem hr
    refine ⟨?_, exists_sets h hname⟩
    rw [writes_completion h]
    exact List.count_eq_one_of_mem hnames hname
  · change List.Forall₂ _ p.args (p.args.map fun a => (marshal a).passed)
    rw [List.forall₂_map_right_iff]
    exact List.forall₂_same.2 fun a ha => sets_argument h ha
  · exact fun hdatabase => ⟨hdatabase, sets_resultCode hdatabase⟩
  · intro hprojection
    obtain ⟨hset, hfilled⟩ := sets_resultSet hprojection
    refine ⟨hset, "_result_set_ref", ?_, hfilled⟩
    simp [call, ProcCall.ofProcedure, hprojection]

end CqlGlue.ObjcClasses
