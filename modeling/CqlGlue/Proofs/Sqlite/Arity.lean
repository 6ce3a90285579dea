import CqlGlue.Bindings.SqliteExtension
import CqlGlue.Proofs.Code.Calls
import CqlGlue.Proofs.Sqlite.Lines
import CqlGlue.Proofs.Text.InOrder
import Mathlib.Data.List.Perm.Basic
import Mathlib.Tactic.MkIffOfInductiveProp

/-!
# The arguments of functions that SQL sees

SQL hands a wrapper the values of some arguments in an array. Four places decide which ones: the
signature above the wrapper, the checks at its beginning, the variables that take the values, and
the registration. The first three are about the arguments that the caller supplies. So is the
registration of a scalar function; a table gets a hidden column for every argument, those that
are only written included, and the wrapper refuses what SQL then passes.

## Main definitions
* `Code.Stmt.leavesIn`, `Code.Stmt.loadsIn` and `Code.Stmt.elementsIn` are what statements say
  about an exit and about an array.
* `Announces`, `Takes` and `Registration.Takes` say of a signature, of a wrapper and of a
  registration that they are about a list of arguments.

## Main statements
* `SqliteWrapper.takes_inArgs`: a wrapper takes the arguments that the caller supplies.
* `SqliteExtension.registration_takes_inArgs_iff`: when the registration does.
-/

namespace CqlGlue

open Code

/-! ## What statements read -/

namespace Code

mutual

/-- The indices at which an expression reads an array. -/
@[simp] def Expr.elements (array : String) : Expr → List Nat
  | .name _ | .member _ _ | .property _ _ => []
  | .address e | .negation e | .cast _ e | .boxed e | .message e _ => e.elements array
  | .element a index => if a = array then [index] else []
  | .differ a b => a.elements array ++ b.elements array
  | .choice c yes no => c.elements array ++ yes.elements array ++ no.elements array
  | .call _ args => Expr.elementsIn array args

/-- The indices at which expressions read an array. -/
@[simp] def Expr.elementsIn (array : String) : List Expr → List Nat
  | [] => []
  | e :: es => e.elements array ++ Expr.elementsIn array es

end

/-- The indices at which what is passed for an argument reads an array. -/
def CallArg.elements (array : String) (a : CallArg) : List Nat :=
  match a.operand with
  | .value e => e.elements array
  | .unsupported _ => []

/-- A variable that takes an element of an array through a function. -/
structure Load where
  index : Nat
  name : String
  reader : String
  deriving DecidableEq

namespace Stmt

mutual

/-- The indices at which a statement reads an array. -/
@[simp] def elements (array : String) : Stmt → List Nat
  | declare ⟨_, _, _, .value e, _⟩ => e.elements array
  | declare _ => []
  | assign target value => target.elements array ++ value.elements array
  | perform e => e.elements array
  | call c => Expr.elementsIn array c.leading ++ c.args.flatMap (CallArg.elements array)
  | performWhen condition e => condition.elements array ++ e.elements array
  | block condition body => condition.elements array ++ elementsIn array body
  | jumpWhen condition _ _ => condition.elements array
  | leave (some e) => e.elements array
  | _ => []

/-- The indices at which statements read an array. -/
@[simp] def elementsIn (array : String) : List Stmt → List Nat
  | [] => []
  | s :: ss => s.elements array ++ elementsIn array ss

end

mutual

/-- The conditions under which a statement leaves by an exit, where it may do so. -/
@[simp] def leaves (exit : String) : Stmt → List (Option Expr)
  | jump target => if target = exit then [none] else []
  | jumpWhen condition target _ => if target = exit then [some condition] else []
  | block _ body => leavesIn exit body
  | _ => []

/-- The conditions under which statements leave by an exit. -/
@[simp] def leavesIn (exit : String) : List Stmt → List (Option Expr)
  | [] => []
  | s :: ss => s.leaves exit ++ leavesIn exit ss

end

/-- The variable that a statement loads from an array. -/
@[simp] def loads (array : String) : Stmt → List Load
  | declare ⟨_, name, _, .value (.call reader [.element a index]), _⟩ =>
    if a = array then [⟨index, name, reader⟩] else []
  | _ => []

/-- The variables that statements load from an array. -/
def loadsIn (array : String) (ss : List Stmt) : List Load := ss.flatMap (loads array)

theorem elementsIn_eq (array : String) (ss : List Stmt) :
    elementsIn array ss = ss.flatMap (elements array) := by
  induction ss with
  | nil => rw [elementsIn, List.flatMap_nil]
  | cons s ss ih => rw [elementsIn, List.flatMap_cons, ih]

theorem leavesIn_eq (exit : String) (ss : List Stmt) :
    leavesIn exit ss = ss.flatMap (leaves exit) := by
  induction ss with
  | nil => rw [leavesIn, List.flatMap_nil]
  | cons s ss ih => rw [leavesIn, List.flatMap_cons, ih]

end Stmt

end Code

namespace SqliteWrapper

/-! ## Statements that are not about the values -/

/-- A statement that neither refuses a call nor reads the values. -/
@[mk_iff]
structure IsNeutral (s : Stmt) : Prop where
  leaves : s.leaves badExit = []
  loads : s.loads "argv" = []
  elements : s.elements "argv" = []

/-- The lines after the variables of the arguments. -/
def remainder (p : Procedure) : List Line :=
  dependencies p ++ performCall p ++ releaseInputs p ++ checkCode p ++ giveResult p ++
    rejection p ++ release p

theorem body_eq_remainder (p : Procedure) :
    body p = clearResult p ++ (checkCount p ++ checkTypes p ++ argumentVariables p) ++
      remainder p := by
  simp only [body, remainder, List.append_assoc]

theorem isNeutral_outputVariable (a : Argument) : IsNeutral (outputVariable a) := by
  cases hr : a.type.isRef <;> cases hn : a.isNotNull <;>
    simp [outputVariable, hr, hn, isNeutral_iff]

theorem IsSideLine.isNeutral {p : Procedure} {l : Line} (h : IsSideLine p l) :
    IsNeutral l.stmt := by
  have hexit : goodExit ≠ badExit := by decide
  cases h with
  | output ha => exact isNeutral_outputVariable _
  | failure silent => cases silent <;> simp [always, nullResult, isNeutral_iff, hexit]
  | finish => simp [always, isNeutral_iff, hexit]
  | _ => exact ⟨rfl, rfl, rfl⟩

theorem isNeutral_call (p : Procedure) : IsNeutral (.call (call p)) := by
  have hargs : ∀ a : Argument, (callArg a).elements "argv" = [] := by
    intro a
    cases hb : a.binding <;> cases ht : a.type <;> simp [callArg, hb, ht, CallArg.elements]
  cases hd : p.usesDatabase <;> cases hp : p.hasProjection <;>
    simp [isNeutral_iff, call, ProcCall.ofProcedure, hd, hp, hargs, List.flatMap_map]

theorem isNeutral_remainder (p : Procedure) : ∀ l ∈ remainder p, IsNeutral l.stmt := by
  have hcall : ∀ l ∈ performCall p, IsNeutral l.stmt := by
    simp only [performCall, List.forall_mem_cons]
    exact ⟨⟨rfl, rfl, rfl⟩, isNeutral_call p, ⟨rfl, rfl, rfl⟩, by simp⟩
  intro l hl
  simp only [remainder, List.mem_append] at hl
  rcases hl with (((((hl | hl) | hl) | hl) | hl) | hl) | hl
  · exact (isSideLine_dependencies l hl).isNeutral
  · exact hcall l hl
  · exact (isSideLine_releaseInputs l hl).isNeutral
  · exact (isSideLine_checkCode l hl).isNeutral
  · exact (isSideLine_giveResult l hl).isNeutral
  · exact (isSideLine_rejection l hl).isNeutral
  · exact (isSideLine_release l hl).isNeutral

/-! ## What a wrapper takes -/

/-- The condition that a value has the wrong type for an argument. -/
def mismatch (a : Argument) (index : Nat) : Expr :=
  .negation (.call "is_sqlite3_type_compatible_with_cql_core_type"
    [.call "sqlite3_value_type" [.element "argv" index], .name a.type.dataType,
      .name (if a.isNotNull then "cql_false" else "cql_true")])

/-- A wrapper is about a list of arguments: it refuses a call if and only if the number of values
is another one or a value has the wrong type for the argument at its place; each argument has a
variable that takes the value at its place; and no other value is read. -/
structure Takes (f : Function) (xs : List Argument) : Prop where
  refuses : Stmt.leavesIn badExit f.body =
    some (.differ (.name "argc") (.name (toString xs.length))) ::
      xs.zipIdx.map fun a => some (mismatch a.1 a.2)
  loads : Stmt.loadsIn "argv" f.body = xs.zipIdx.map fun a => ⟨a.2, a.1.name, valueReader a.1⟩
  elements : Stmt.elementsIn "argv" f.body = List.range xs.length ++ List.range xs.length

/-- What the statements of a wrapper come to is what the checks and the variables of the values
come to, where statements that are not about the values come to nothing. -/
theorem flatMap_body {β : Type} {g : Stmt → List β} (h : ∀ s, IsNeutral s → g s = [])
    (v : Verbosity) (name : String) (p : Procedure) :
    (function v name p).body.flatMap g =
      g (.jumpWhen (.differ (.name "argc") (.name (toString p.inArgs.length))) badExit "") ++
        (p.inArgs.zipIdx.flatMap fun a => g (checkType a.1 a.2)) ++
        p.inArgs.zipIdx.flatMap fun a => g (inputVariable a.1 a.2) := by
  have hnone : ∀ {ls : List Line}, (∀ l ∈ ls, IsNeutral l.stmt) →
      ls.flatMap (fun l => g l.stmt) = [] := by
    intro ls hls
    exact List.flatMap_eq_nil_iff.2 fun l hl => h _ (hls l hl)
  have hbody : (function v name p).body = shown v (body p) := rfl
  rw [hbody, flatMap_shown v fun l hl hleast => h _ (isSideLine_of_least_ne hl hleast).isNeutral,
    body_eq_remainder, List.flatMap_append, List.flatMap_append,
    hnone fun l hl => (isSideLine_clearResult l hl).isNeutral, hnone (isNeutral_remainder p)]
  have hnote : ∀ text, g (.note text) = [] := fun text => h _ ⟨rfl, rfl, rfl⟩
  have hblank : g .blank = [] := h _ ⟨rfl, rfl, rfl⟩
  have houtput : ∀ a, g (outputVariable a) = [] := fun a => h _ (isNeutral_outputVariable a)
  simp [checkCount, checkTypes, argumentVariables, remark, always, List.flatMap_append,
    List.flatMap_map, hnote, hblank, houtput]

theorem takes_inArgs (v : Verbosity) (name : String) (p : Procedure) :
    Takes (function v name p) p.inArgs where
  refuses := by
    rw [Stmt.leavesIn_eq, flatMap_body fun s hs => hs.leaves]
    simp [checkType, inputVariable, List.map_eq_flatMap, mismatch]
  loads := by
    rw [Stmt.loadsIn, flatMap_body fun s hs => hs.loads]
    simp [checkType, inputVariable, List.map_eq_flatMap]
  elements := by
    have hindex : ∀ xs : List Argument, xs.zipIdx.flatMap (fun a => [a.2]) = List.range xs.length :=
      fun xs => by rw [← List.map_eq_flatMap, List.zipIdx_map_snd, List.range_eq_range']
    rw [Stmt.elementsIn_eq, flatMap_body fun s hs => hs.elements]
    simp [checkType, inputVariable, hindex]

end SqliteWrapper

namespace SqliteExtension

/-! ## Names -/

/-- The wrappers of a file, in order. -/
def wrappers (o : Options) (s : Schema) : List Function :=
  (ordered s).map fun p => SqliteWrapper.function o.verbosity (sqlName o p) p

variable {o : Options} {s : Schema} {p : Procedure}

theorem sqlName_eq_iff (o : Options) {p q : Procedure} :
    sqlName o q = sqlName o p ↔ q.name = p.name := by
  cases h : o.namePrefix with
  | none => simp [sqlName, h]
  | some namePrefix => simp [sqlName, h]

theorem symbol_eq_iff {name name' : String} :
    SqliteWrapper.symbol name' = SqliteWrapper.symbol name ↔ name' = name := by
  simp [SqliteWrapper.symbol]

/-- The procedures of the name of one whose name is unique. -/
theorem filter_wrapped (hp : p ∈ s.wrapped) (hname : (s.procedures.map (·.name)).count p.name = 1) :
    s.wrapped.filter (·.name == p.name) = [p] := by
  have hmem : p ∈ s.wrapped.filter (·.name == p.name) := List.mem_filter.2 ⟨hp, by simp⟩
  -- procedures that are passed over have a wrapper less, never one more
  have hlength : (s.wrapped.filter (·.name == p.name)).length ≤ 1 := by
    rw [← hname, List.count, List.countP_map, ← List.countP_eq_length_filter]
    exact List.Sublist.countP_le List.filter_sublist
  obtain ⟨q, hq⟩ : ∃ q, s.wrapped.filter (·.name == p.name) = [q] :=
    List.length_eq_one_iff.1 (Nat.le_antisymm hlength (List.length_pos_of_mem hmem))
  rw [hq, List.mem_singleton] at hmem
  rw [hq, hmem]

theorem filter_ordered (hp : p ∈ s.wrapped) (hname : (s.procedures.map (·.name)).count p.name = 1) :
    (ordered s).filter (·.name == p.name) = [p] := by
  have hsorted := List.mergeSort_perm s.wrapped fun a b => !(b.name < a.name)
  have hperm := hsorted.filter (·.name == p.name)
  rw [filter_wrapped hp hname] at hperm
  exact List.perm_singleton.1 hperm

theorem filter_wrappers (hp : p ∈ s.wrapped)
    (hname : (s.procedures.map (·.name)).count p.name = 1) :
    (wrappers o s).filter (·.symbol == SqliteWrapper.symbol (sqlName o p)) =
      [SqliteWrapper.function o.verbosity (sqlName o p) p] := by
  have hsymbol : ((·.symbol == SqliteWrapper.symbol (sqlName o p)) ∘ fun q =>
      SqliteWrapper.function o.verbosity (sqlName o q) q) = (·.name == p.name) := by
    funext q
    rw [Bool.eq_iff_iff]
    simp [SqliteWrapper.function, symbol_eq_iff, sqlName_eq_iff]
  rw [wrappers, List.filter_map, hsymbol, filter_ordered hp hname]
  rfl

theorem filter_registrations (hp : p ∈ s.wrapped)
    (hname : (s.procedures.map (·.name)).count p.name = 1) :
    (registrations o s).filter (·.1 == sqlName o p) = [(sqlName o p, registration p)] := by
  have hsql : ((·.1 == sqlName o p) ∘ fun q => (sqlName o q, registration q)) =
      (·.name == p.name) := by
    funext q
    rw [Bool.eq_iff_iff]
    simp [sqlName_eq_iff]
  rw [registrations, List.filter_map, hsql, filter_wrapped hp hname]
  rfl

/-! ## The text -/

theorem inOrder_wrapper (v : Verbosity) (name : String) (p : Procedure) :
    Text.InOrder [SqliteWrapper.signature name p ++ "\n" ++
      (SqliteWrapper.function v name p).text] (SqliteWrapper.text v name p) := by
  let remarks := SqliteWrapper.shown v ((SqliteWrapper.passedOver p).map fun a =>
    SqliteWrapper.remark .normal
      ("/* object not implemented yet, skipping outtie arg " ++ a.name ++ " */"))
  have hpreface : SqliteWrapper.shown v (SqliteWrapper.preface name p) =
      remarks ++ [Stmt.note (SqliteWrapper.signature name p)] := by
    rw [SqliteWrapper.preface, SqliteWrapper.shown_append]
    congr 1
  have hsignature : unlines (Stmt.linesOf 0 [.note (SqliteWrapper.signature name p)]) =
      SqliteWrapper.signature name p ++ "\n" := by
    have hindent : Stmt.indent 0 = "" := rfl
    simp [Stmt.linesOf, Stmt.lines, hindent, unlines_singleton]
  rw [SqliteWrapper.text, hpreface, Stmt.linesOf_append, unlines_append, hsignature]
  have hassoc : unlines (Stmt.linesOf 0 remarks) ++ (SqliteWrapper.signature name p ++ "\n") ++
      (SqliteWrapper.function v name p).text = unlines (Stmt.linesOf 0 remarks) ++
        (SqliteWrapper.signature name p ++ "\n" ++ (SqliteWrapper.function v name p).text) :=
    String.append_assoc
  rw [hassoc]
  exact ((Text.InOrder.self _).after _).before _

theorem inOrder_initializer (o : Options) (hp : p ∈ s.wrapped) :
    Text.InOrder [(registration p).text (sqlName o p)] (initializerText o s) := by
  have hregistered : (sqlName o p, registration p) ∈ registrations o s :=
    List.mem_map.2 ⟨p, hp, rfl⟩
  have hpiece : Text.InOrder [(registration p).text (sqlName o p)]
      ("\n" ++ (registration p).text (sqlName o p) ++ "\n  if (rc != SQLITE_OK) return rc;\n") :=
    ((Text.InOrder.self _).after _).before _
  have hjoin : Text.InOrder _ (String.join ((registrations o s).map fun r =>
    "\n" ++ r.2.text r.1 ++ "\n  if (rc != SQLITE_OK) return rc;\n")) :=
    .join_of_mem hregistered hpiece
  unfold initializerText
  exact ((hjoin.after _).before _).before _

theorem inOrder_text (o : Options) (hp : p ∈ s.wrapped) :
    Text.InOrder [SqliteWrapper.signature (sqlName o p) p ++ "\n" ++
        (SqliteWrapper.function o.verbosity (sqlName o p) p).text,
      (registration p).text (sqlName o p)] (text o s) := by
  have hordered : p ∈ ordered s := List.mem_mergeSort.2 hp
  have hwrapper := inOrder_wrapper o.verbosity (sqlName o p) p
  have hjoin : Text.InOrder _ (String.join ((ordered s).map fun p =>
    SqliteWrapper.text o.verbosity (sqlName o p) p)) := .join_of_mem hordered hwrapper
  unfold text
  exact (hjoin.after _).append (inOrder_initializer o hp)

/-! ## Registrations -/

/-- A registration is about a list of arguments. -/
def Registration.Takes : Registration → List Argument → Prop
  | .scalar arity, xs => arity = xs.length
  | .table _ hidden, xs =>
    hidden = xs.map fun a => "[arg_" ++ a.name ++ "] " ++ a.type.name ++ " hidden"

theorem inArgs_eq_args_iff (p : Procedure) :
    p.inArgs.length = p.args.length ↔ ∀ a ∈ p.args, a.binding ≠ .outOnly := by
  rw [Procedure.inArgs, List.length_filter_eq_length_iff]
  refine forall₂_congr fun a _ => ?_
  cases a.binding <;> simp [Binding.isInput]

theorem registration_takes_iff (p : Procedure) :
    (registration p).Takes p.inArgs ↔
      (p.hasProjection = true → ∀ a ∈ p.args, a.binding ≠ .outOnly) := by
  rw [← inArgs_eq_args_iff]
  cases hp : p.hasProjection with
  | false => simp [registration, hp, Registration.Takes]
  | true =>
    simp only [registration, hp, if_true, Registration.Takes, forall_const]
    constructor
    · intro h
      simpa using congrArg List.length h.symm
    · intro h
      rw [Procedure.inArgs, List.filter_eq_self.2]
      simpa [Procedure.inArgs] using h

/-- A signature announces a function of a list of arguments. -/
def Announces (signature name : String) (xs : List Argument) : Prop :=
  ∃ result, signature = "// SELECT FUNC " ++ name ++ "(" ++
    String.intercalate ", " (xs.map fun a => SqliteWrapper.declared a.name a.type a.isNotNull) ++
      ") " ++ result ++ ";"

theorem announces_signature (name : String) (p : Procedure) :
    Announces (SqliteWrapper.signature name p) name p.inArgs := ⟨_, rfl⟩

/-- A procedure whose name is unique has one wrapper and one registration under the name that SQL
sees. Signature and wrapper are about the arguments that the caller supplies. The registration is
about them too unless the procedure has a result set and an argument that is only written. -/
theorem registration_takes_inArgs_iff (o : Options) (hp : p ∈ s.wrapped)
    (hname : (s.procedures.map (·.name)).count p.name = 1) :
    let name := sqlName o p
    let wrapper := SqliteWrapper.function o.verbosity name p
    (wrappers o s).filter (·.symbol == SqliteWrapper.symbol name) = [wrapper] ∧
      (registrations o s).filter (·.1 == name) = [(name, registration p)] ∧
      Text.InOrder [SqliteWrapper.signature name p ++ "\n" ++ wrapper.text,
        (registration p).text name] (text o s) ∧
      Announces (SqliteWrapper.signature name p) name p.inArgs ∧
      SqliteWrapper.Takes wrapper p.inArgs ∧
      ((registration p).Takes p.inArgs ↔
        (p.hasProjection = true → ∀ a ∈ p.args, a.binding ≠ .outOnly)) :=
  ⟨filter_wrappers hp hname, filter_registrations hp hname, inOrder_text o hp,
    announces_signature _ p, SqliteWrapper.takes_inArgs o.verbosity _ p, registration_takes_iff p⟩

/-- A procedure with a result set that also writes an argument. -/
def inspect : Procedure :=
  ⟨"inspect",
    [⟨"a", .integer, true, .inOnly, none, false⟩, ⟨"b", .integer, true, .outOnly, none, false⟩],
    some [⟨"id", .integer, true, none, false⟩], [], some true, false⟩

/-- The wrapper of `inspect` takes one value, and its table has two hidden columns. -/
theorem not_registration_takes_inspect :
    let s : Schema := ⟨[inspect], [], [], [], [], []⟩
    let wrapper := SqliteWrapper.function .quiet "inspect" inspect
    inspect ∈ s.wrapped ∧ (s.procedures.map (·.name)).count inspect.name = 1 ∧
      SqliteWrapper.Takes wrapper inspect.inArgs ∧ inspect.inArgs.length = 1 ∧
      ¬(registration inspect).Takes inspect.inArgs ∧
      registration inspect =
        .table ["[id] integer"] ["[arg_a] integer hidden", "[arg_b] integer hidden"] := by
  have hp : inspect ∈ (⟨[inspect], [], [], [], [], []⟩ : Schema).wrapped :=
    List.mem_filter.2 ⟨List.mem_cons_self, rfl⟩
  have hname : ((⟨[inspect], [], [], [], [], []⟩ : Schema).procedures.map (·.name)).count
      inspect.name = 1 := by decide
  obtain ⟨-, -, -, -, htakes, hiff⟩ :=
    registration_takes_inArgs_iff ⟨"schema.json", "cqlrt.h", none, .quiet⟩ hp hname
  refine ⟨hp, hname, htakes, rfl, fun h => ?_, by decide⟩
  exact hiff.1 h rfl ⟨"b", .integer, true, .outOnly, none, false⟩ (by decide) rfl

end SqliteExtension

end CqlGlue
