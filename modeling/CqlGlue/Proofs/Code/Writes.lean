import CqlGlue.Proofs.Code.Runs

/-!
# Fields that a run writes

A statement writes a field of an object by assigning to it, or hands its address to a function
that may write it. Both count as writes here, so that a field no step is said to write is left
alone, and a field written once is given its value by one known step.

## Main definitions
* `Step.places` are the places that a step may write, `writes` the fields among them.
* `Stmt.possible` are the steps that a statement can make.

## Main statements
* `Stmt.exists_runAll_straight`: where no statement leaves, a run makes possible steps and goes on.
-/

namespace CqlGlue.Code

/-! ## Places -/

mutual

/-- The places whose address an expression takes. -/
def Expr.addressed : Expr → List Expr
  | .address e => e :: e.addressed
  | .negation e | .cast _ e | .boxed e | .message e _ => e.addressed
  | .differ a b => a.addressed ++ b.addressed
  | .choice condition yes no => condition.addressed ++ yes.addressed ++ no.addressed
  | .call _ args => Expr.addressedIn args
  | .name _ | .member _ _ | .property _ _ | .element _ _ => []

/-- The places whose address the expressions of a list take. -/
def Expr.addressedIn : List Expr → List Expr
  | [] => []
  | e :: es => e.addressed ++ Expr.addressedIn es

end

/-- The field of an object that an expression is. -/
def Expr.fieldOf? (object : String) : Expr → Option String
  | .member o field | .property o field => if o = object then some field else none
  | _ => none

/-- The places whose address is passed for an argument. -/
def CallArg.addressed (a : CallArg) : List Expr :=
  match a.operand with
  | .value e => (if a.byAddress then [e] else []) ++ e.addressed
  | .unsupported _ => []

/-- The places that a statement may write. Statements in a block are steps of their own. -/
def Stmt.places : Stmt → List Expr
  | .declare d =>
    match d.start with
    | .value e => e.addressed
    | .unset | .null => []
  | .assign target value => target :: (target.addressed ++ value.addressed)
  | .perform e => e.addressed
  | .call c => Expr.addressedIn c.leading ++ c.args.flatMap CallArg.addressed
  | .performWhen condition e => condition.addressed ++ e.addressed
  | .block condition _ | .jumpWhen condition _ _ => condition.addressed
  | .leave (some e) => e.addressed
  | .leave none | .record _ _ _ | .jump _ | .label _ | .note _ | .idle _ | .blank => []

/-- The places that a step may write. -/
def Step.places : Step → List Expr
  | .done s => s.places
  | .tested condition _ => condition.addressed

/-- The fields of an object that are passed by address for an argument. -/
def CallArg.writes (object : String) (a : CallArg) : List String :=
  a.addressed.filterMap (Expr.fieldOf? object)

/-- The fields of an object that a statement may write. -/
def Stmt.writes (object : String) (s : Stmt) : List String :=
  s.places.filterMap (Expr.fieldOf? object)

/-- The fields of an object that steps may write, in order. -/
def writes (object : String) (steps : List Step) : List String :=
  (steps.flatMap Step.places).filterMap (Expr.fieldOf? object)

section

variable {object : String}

@[simp] theorem writes_nil : writes object [] = [] := rfl

@[simp] theorem writes_append (xs ys : List Step) :
    writes object (xs ++ ys) = writes object xs ++ writes object ys := by
  simp [writes]

@[simp] theorem writes_done (s : Stmt) (steps : List Step) :
    writes object (.done s :: steps) = s.writes object ++ writes object steps := by
  simp [writes, Step.places, Stmt.writes]

theorem writes_map_done (ss : List Stmt) :
    writes object (ss.map .done) = ss.flatMap (Stmt.writes object) := by
  induction ss with
  | nil => rfl
  | cons s ss ih => rw [List.map_cons, writes_done, ih, List.flatMap_cons]

/-- The empty line that sets statements off writes nothing. -/
theorem flatMap_writes_setOff (ss : List Stmt) :
    (Stmt.setOff ss).flatMap (Stmt.writes object) = ss.flatMap (Stmt.writes object) := by
  cases ss with
  | nil => rfl
  | cons s ss => exact List.flatMap_append.trans (List.append_nil _)

theorem writes_call (c : ProcCall) (hleading : ∀ e ∈ c.leading, e.addressed.filterMap
    (Expr.fieldOf? object) = []) :
    (Stmt.call c).writes object = c.args.flatMap (CallArg.writes object) := by
  have hnone : ∀ es : List Expr, (∀ e ∈ es, e.addressed.filterMap (Expr.fieldOf? object) = []) →
      (Expr.addressedIn es).filterMap (Expr.fieldOf? object) = [] := by
    intro es
    induction es with
    | nil => exact fun _ => rfl
    | cons e es ih =>
      intro h
      rw [Expr.addressedIn, List.filterMap_append, h e List.mem_cons_self,
        ih fun e' he' => h e' (List.mem_cons_of_mem e he')]
      rfl
  rw [Stmt.writes, Stmt.places, List.filterMap_append, hnone _ hleading, List.nil_append,
    List.filterMap_flatMap]
  rfl

end

/-! ## Straight runs -/

namespace Stmt

theorem mem_setOff {s : Stmt} {ss : List Stmt} (h : s ∈ setOff ss) : s ∈ ss ∨ s = blank := by
  cases ss with
  | nil => exact .inl h
  | cons t ss => simpa [setOff, or_assoc] using h

theorem isPlain_setOff {ss : List Stmt} (h : ∀ s ∈ ss, s.isPlain = true) :
    ∀ s ∈ setOff ss, s.isPlain = true := by
  intro s hs
  obtain hs | rfl := mem_setOff hs
  · exact h s hs
  · rfl

/-- A statement after which the next one is carried out, or a block of such statements. -/
def isStraight : Stmt → Bool
  | block _ body => body.all isPlain
  | s => s.isPlain

/-- The steps that a statement can make, of those that do not leave. -/
def possible : Stmt → List Step
  | block condition body => .tested condition true :: .tested condition false :: body.map .done
  | s => [.done s]

/-- A straight statement makes possible steps, and the run goes on. -/
theorem exists_run_straight (holds : Outcomes) {s : Stmt} (h : s.isStraight = true)
    (steps : List Step) : ∃ made ⊆ s.possible,
      run holds s ⟨.onward, steps⟩ = ⟨.onward, steps ++ made⟩ := by
  cases s with
  | block condition body =>
    have hplain : ∀ t ∈ body, t.isPlain = true := List.all_eq_true.1 h
    rw [run_block]
    cases holds steps condition with
    | false => exact ⟨[.tested condition false], by simp [possible], rfl⟩
    | true =>
      refine ⟨.tested condition true :: body.map .done, ?_, ?_⟩
      · exact List.cons_subset_cons _ (List.subset_cons_self ..)
      · rw [if_pos rfl, runAll_plain hplain, List.append_assoc]
        rfl
  | leave value => cases h
  | jump target => cases h
  | jumpWhen condition target remark => cases h
  | performWhen condition e => cases h
  | _ => exact ⟨_, List.Subset.refl _, run_plain rfl steps⟩

/-- Statements of which none leaves make possible steps, and the run goes on behind them. -/
theorem exists_runAll_straight (holds : Outcomes) {ss : List Stmt}
    (h : ∀ s ∈ ss, s.isStraight = true) (steps : List Step) : ∃ made ⊆ ss.flatMap possible,
      runAll holds ss ⟨.onward, steps⟩ = ⟨.onward, steps ++ made⟩ := by
  induction ss generalizing steps with
  | nil => exact ⟨[], List.nil_subset _, by simp⟩
  | cons s ss ih =>
    obtain ⟨first, hfirst, hrun⟩ := exists_run_straight holds (h s List.mem_cons_self) steps
    obtain ⟨rest, hrest, hruns⟩ := ih (fun t ht => h t (List.mem_cons_of_mem s ht)) (steps ++ first)
    refine ⟨first ++ rest, ?_, by rw [runAll_cons, hrun, hruns, List.append_assoc]⟩
    rw [List.flatMap_cons]
    exact List.append_subset.2 ⟨fun x hx => List.mem_append_left _ (hfirst hx),
      fun x hx => List.mem_append_right _ (hrest hx)⟩

end Stmt

end CqlGlue.Code
