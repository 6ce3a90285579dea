import CqlGlue.Proofs.Code.Runs
import CqlGlue.Proofs.Sqlite.Arity

/-!
# Runs of wrappers

The body of a wrapper is a number of blocks tied together by jumps to two exits, one for calls with
wrong arguments and one for all other calls. Each block is run on its own here, and the runs of the
blocks are put together: a call is refused by the checks and goes to the first exit, or it passes
them, calls the procedure, releases what only the call needed, and comes to the second exit, be it
from the check of the result code or behind the result.

## Main definitions
* `released?`, `answered?` and `nullTest?` are what a step of a run does with a variable.
* `Refuses` says of steps that they met wrong arguments.
* `IsWrapperRun` is the shape of the runs of a wrapper.

## Main statements
* `labels_function`: a wrapper has two labels, its exits.
* `isWrapperRun_run`: all runs of a wrapper have the shape.
-/

namespace CqlGlue.SqliteWrapper

open Code

/-! ## What a run does with variables -/

/-- The functions that release references. -/
def releasers : List String := [CoreType.blob, .object, .text].map releaser

/-- The function by which a step releases a variable, and the variable. -/
def released? : Step → Option (String × String)
  | .done (.perform (.call f [.name x])) => if f ∈ releasers then some (f, x) else none
  | _ => none

/-- The variable that a step makes the scalar result. -/
def answered? : Step → Option String
  | .done (.perform (.call _ [.name c, .name x])) => if c = "context" then some x else none
  | _ => none

/-- The variable that a step tests, and whether it is not null. -/
def nullTest? : Step → Option (String × Bool)
  | .tested (.name x) present => some (x, present)
  | _ => none

/-- What steps release, in order. -/
def releases (steps : List Step) : List (String × String) := steps.filterMap released?

/-- The variables that steps test, in order. -/
def nullTests (steps : List Step) : List (String × Bool) := steps.filterMap nullTest?

/-- The conditions under which a wrapper refuses a call. -/
def refusals (p : Procedure) : List Expr :=
  .differ (.name "argc") (.name (toString p.inArgs.length)) ::
    p.inArgs.zipIdx.map fun a => mismatch a.1 a.2

/-- A run has met wrong arguments. -/
def Refuses (p : Procedure) (steps : List Step) : Prop :=
  ∃ condition ∈ refusals p, .tested condition true ∈ steps

variable {p : Procedure}

/-! ## Steps -/

/-- A step that releases no variable, gives none as the result and tests none. -/
structure IsMute (x : Step) : Prop where
  released : released? x = none
  answered : answered? x = none
  tested : nullTest? x = none

/-- A mute step that is no condition that holds. -/
structure IsAside (x : Step) : Prop extends IsMute x where
  fails : ∀ condition, x ≠ .tested condition true

/-- A statement that is followed by the next one, is no label, and calls no function for what
the function does. -/
def isQuiet : Stmt → Bool
  | .perform _ | .label _ => false
  | s => s.isPlain

theorem isAside_of_isQuiet {s : Stmt} (h : isQuiet s = true) : IsAside (.done s) := by
  cases s with
  | perform e => cases h
  | _ => exact ⟨⟨rfl, rfl, rfl⟩, by simp⟩

theorem isPlain_of_isQuiet {s : Stmt} (h : isQuiet s = true) : s.isPlain = true := by
  cases s with
  | perform e => cases h
  | label name => cases h
  | _ => exact h

/-- The release of an argument. -/
def releaseStmt (a : Argument) : Stmt := .perform (.call (releaser a.type) [.name a.name])

/-- What is done with an argument that was written back. -/
def outputSteps (o : Argument × Bool) : List Step :=
  .tested (.name o.1.name) o.2 :: if o.2 then [.done (releaseStmt o.1)] else []

/-- What is done between the call and the second releases. -/
inductive IsAnswer (p : Procedure) : Step → Prop where
  | aside {x : Step} (h : IsAside x) : IsAnswer p x
  | code (failed : Bool) :
      IsAnswer p (.tested (.differ (.name "rc") (.name "SQLITE_OK")) failed)
  | null : IsAnswer p (.done nullResult)
  | scalar {a : Argument} (h : scalarOutput? p = some a) :
      IsAnswer p (.done (.perform (.call (resultWriter a) [.name "context", .name a.name])))

/-- A step of the checks. -/
structure IsCheck (p : Procedure) (x : Step) : Prop extends IsMute x where
  mem_refusals : ∀ condition outcome, x = .tested condition outcome → condition ∈ refusals p

/-- The references that only the call needs. -/
def inputs (p : Procedure) : List Argument :=
  p.args.filter fun a => a.binding == .inOnly && a.type.isRef

/-- The references that are written back. -/
def outputs (p : Procedure) : List Argument := p.outArgs.filter (·.type.isRef)

/-- The steps of a run up to the exit, with the first releases after the call. -/
def early (p : Procedure) (before between answer : List Step) : List Step :=
  before ++ Step.done (.call (call p)) ::
    (between ++ (inputs p).map (fun a => Step.done (releaseStmt a)) ++ answer)

/-- The steps of a run behind the exit, with the second releases. -/
def late (outcomes : List (Argument × Bool)) (rest : List Step) : List Step :=
  outcomes.flatMap outputSteps ++ rest

/-- The runs of a wrapper. -/
inductive IsWrapperRun (p : Procedure) : Run → Prop where
  | refused {checked rejected : List Step} (hchecked : ∀ x ∈ checked, IsCheck p x)
      {condition : Expr} (hholds : .tested condition true ∈ checked)
      (hrejected : ∀ x ∈ rejected, IsMute x) : IsWrapperRun p ⟨.returned, checked ++ rejected⟩
  | accepted {before between answer rest : List Step} {outcomes : List (Argument × Bool)}
      (hbefore : ∀ x ∈ before, IsAside x) (hbetween : ∀ x ∈ between, IsAside x)
      (hanswer : ∀ x ∈ answer, IsAnswer p x) (houtcomes : outcomes.map Prod.fst = outputs p)
      (hrest : ∀ x ∈ rest, IsAside x) :
      IsWrapperRun p ⟨.onward, early p before between answer ++ late outcomes rest⟩

/-! ## The runs of a wrapper -/

theorem mem_shown {v : Verbosity} {s : Stmt} {ls : List Line} (h : s ∈ shown v ls) :
    ∃ l ∈ ls, l.stmt = s :=
  List.mem_map.1 (shown_subset v ls h)

/-- A label that is not among lines is not among what is shown of them. -/
theorem label_notMem_shown {v : Verbosity} {name : String} {ls : List Line}
    (h : ∀ l ∈ ls, l.stmt ≠ .label name) : .label name ∉ shown v ls := by
  intro hmem
  obtain ⟨l, hl, hs⟩ := mem_shown hmem
  exact h l hl hs

variable (v : Verbosity) (holds : Outcomes)

/-- Quiet lines come one after the other. -/
theorem exists_runAll_quiet {ls : List Line} (h : ∀ l ∈ ls, isQuiet l.stmt = true)
    (steps : List Step) :
    ∃ asides, (∀ x ∈ asides, IsAside x) ∧
      Stmt.runAll holds (shown v ls) ⟨.onward, steps⟩ = ⟨.onward, steps ++ asides⟩ := by
  have hquiet : ∀ s ∈ shown v ls, isQuiet s = true := by
    intro s hs
    obtain ⟨l, hl, rfl⟩ := mem_shown hs
    exact h l hl
  exact ⟨(shown v ls).map .done, List.forall_mem_map.2 fun s hs => isAside_of_isQuiet (hquiet s hs),
    Stmt.runAll_plain (fun s hs => isPlain_of_isQuiet (hquiet s hs)) steps⟩

/-- The lines that check the values. -/
def checks (p : Procedure) : List Line := clearResult p ++ checkCount p ++ checkTypes p

/-- The lines from the checks to the call. -/
def setup (p : Procedure) : List Line :=
  argumentVariables p ++ dependencies p ++ [remark .verbose "// 5. Call the procedure"]

/-- The call, and the first releases. -/
def middle (p : Procedure) : List Line :=
  always (.call (call p)) :: always .blank :: releaseInputs p

/-- The lines between the checks and the exits. -/
def service (p : Procedure) : List Line :=
  setup p ++ (middle p ++ (checkCode p ++ giveResult p))

theorem body_eq_parts (p : Procedure) :
    body p = checks p ++ (service p ++ (rejection p ++ release p)) := by
  simp [body, checks, service, setup, middle, performCall]

theorem checks_cases : ∀ l ∈ checks p, isQuiet l.stmt = true ∨
    ∃ condition ∈ refusals p, ∃ remark, l.stmt = .jumpWhen condition badExit remark := by
  have hclear : ∀ l ∈ clearResult p, isQuiet l.stmt = true := by
    cases hp : p.hasProjection with
    | false => simp [clearResult, hp]
    | true =>
      simp only [clearResult, hp, if_true, List.forall_mem_cons]
      exact ⟨rfl, rfl, rfl, by simp⟩
  simp only [checks, checkCount, checkTypes, List.forall_mem_append, List.forall_mem_cons,
    List.forall_mem_map]
  refine ⟨⟨fun l hl => .inl (hclear l hl), .inl rfl, .inr ?_, .inl rfl, by simp⟩,
    ⟨⟨.inl rfl, by simp⟩, fun x hx => .inr ?_⟩, .inl rfl, by simp⟩
  · exact ⟨_, List.mem_cons_self, "", rfl⟩
  · exact ⟨mismatch x.1 x.2, List.mem_cons_of_mem _ (List.mem_map.2 ⟨x, hx, rfl⟩), _, rfl⟩

theorem isMute_tested_of_mem_refusals {condition : Expr} (h : condition ∈ refusals p)
    (outcome : Bool) : IsMute (.tested condition outcome) := by
  obtain rfl | h := List.mem_cons.1 h
  · exact ⟨rfl, rfl, rfl⟩
  · obtain ⟨a, -, rfl⟩ := List.mem_map.1 h
    exact ⟨rfl, rfl, rfl⟩

theorem isCheck_of_isGuardStep {v : Verbosity} {x : Step}
    (h : Stmt.IsGuardStep badExit (shown v (checks p)) x) : IsCheck p x := by
  cases h with
  | done h hplain =>
    obtain ⟨l, hl, rfl⟩ := mem_shown h
    obtain hquiet | ⟨condition, -, remark, hs⟩ := checks_cases l hl
    · exact ⟨(isAside_of_isQuiet hquiet).toIsMute, by simp⟩
    · rw [hs] at hplain
      cases hplain
  | tested h outcome =>
    obtain ⟨l, hl, hs⟩ := mem_shown h
    obtain hquiet | ⟨condition, hc, remark, hs'⟩ := checks_cases l hl
    · rw [hs] at hquiet
      cases hquiet
    · rw [hs'] at hs
      cases hs
      refine ⟨isMute_tested_of_mem_refusals hc outcome, fun c b h => ?_⟩
      cases h
      exact hc

theorem ne_label_checks (p : Procedure) : ∀ l ∈ checks p, ∀ name, l.stmt ≠ .label name := by
  intro l hl name hlabel
  obtain hquiet | ⟨condition, -, remark, hs⟩ := checks_cases l hl
  · rw [hlabel] at hquiet
    cases hquiet
  · rw [hlabel] at hs
    cases hs

theorem guardedRun_checks (p : Procedure) (steps : List Step) :
    Stmt.GuardedRun badExit (shown v (checks p)) steps
      (Stmt.runAll holds (shown v (checks p)) ⟨.onward, steps⟩) := by
  refine Stmt.guardedRun_runAll (fun s hs => ?_)
    (label_notMem_shown fun l hl => ne_label_checks p l hl badExit) steps
  obtain ⟨l, hl, rfl⟩ := mem_shown hs
  exact (checks_cases l hl).imp isPlain_of_isQuiet fun ⟨c, _, remark, h⟩ => ⟨c, remark, h⟩

theorem isQuiet_setup (p : Procedure) : ∀ l ∈ setup p, isQuiet l.stmt = true := by
  have hdependencies : ∀ l ∈ dependencies p, isQuiet l.stmt = true := by
    cases hd : p.usesDatabase <;> cases hp : p.hasProjection <;>
      simp [dependencies, hd, hp, remark, always, Stmt.define, isQuiet, Stmt.isPlain]
  simp only [setup, argumentVariables, List.forall_mem_append, List.forall_mem_cons,
    List.forall_mem_map]
  exact ⟨⟨⟨⟨⟨⟨rfl, by simp⟩, fun _ _ => rfl⟩, fun _ _ => rfl⟩, rfl, by simp⟩, hdependencies⟩,
    rfl, by simp⟩

/-- The call and the first releases. -/
theorem exists_runAll_call (p : Procedure) (steps : List Step) :
    ∃ between, (∀ x ∈ between, IsAside x) ∧
      Stmt.runAll holds (shown v (middle p)) ⟨.onward, steps⟩ =
        ⟨.onward, early p steps between [.done .blank]⟩ := by
  have hlines : always .blank :: releaseInputs p = [always .blank, remark .verbose
      "// 6. Cleanup In arguments since they are no longer needed"] ++
        ((inputs p).map releaseStmt ++ [Stmt.blank]).map always := by
    simp [releaseInputs, inputs, releaseStmt]
  have hquiet : ∀ l ∈ [always .blank, remark .verbose
      "// 6. Cleanup In arguments since they are no longer needed"], isQuiet l.stmt = true := by
    decide
  obtain ⟨between, hbetween, hrun⟩ :=
    exists_runAll_quiet v holds hquiet (steps ++ [Step.done (.call (call p))])
  have hplain : ∀ s ∈ (inputs p).map releaseStmt ++ [Stmt.blank], s.isPlain = true := by
    simp only [List.forall_mem_append, List.forall_mem_map, List.forall_mem_cons]
    exact ⟨fun _ _ => rfl, rfl, by simp⟩
  refine ⟨between, hbetween, ?_⟩
  rw [middle, shown_always_cons, Stmt.runAll_cons, Stmt.run_plain rfl, hlines, shown_append,
    Stmt.runAll_append, hrun, shown_map_always, Stmt.runAll_plain hplain, early]
  simp

/-- The answer to a call with wrong arguments. -/
def complaint (p : Procedure) : List Stmt :=
  if p.hasProjection then []
  else [.perform (.call "sqlite3_result_error" [.name "context",
    .name "\"CQL extension: Invalid procedure arguments\"", .name "-1"])]

theorem rejection_eq (p : Procedure) :
    rejection p = (.label badExit :: (complaint p ++ [Stmt.leave none, .blank])).map always := by
  cases hp : p.hasProjection <;> simp [rejection, complaint, hp]

theorem complaint_cases : ∀ s ∈ complaint p,
    s.isPlain = true ∧ s.label? = none ∧ IsMute (.done s) := by
  cases hp : p.hasProjection with
  | true => simp [complaint, hp]
  | false =>
    simp only [complaint, hp, Bool.false_eq_true, if_false, List.forall_mem_cons]
    exact ⟨⟨rfl, rfl, rfl, rfl, rfl⟩, by simp⟩

/-- The exit for calls with wrong arguments. -/
theorem exists_runAll_rejection (p : Procedure) (steps : List Step) :
    ∃ rejected, (∀ x ∈ rejected, IsMute x) ∧
      Stmt.runAll holds (shown v (rejection p)) ⟨.seeking badExit, steps⟩ =
        ⟨.returned, steps ++ rejected⟩ := by
  refine ⟨(complaint p).map .done,
    List.forall_mem_map.2 fun s hs => (complaint_cases s hs).2.2, ?_⟩
  rw [rejection_eq, shown_map_always, Stmt.runAll_cons, Stmt.run_label, Stmt.runAll_append,
    Stmt.runAll_plain fun s hs => (complaint_cases s hs).1, Stmt.runAll_cons, Stmt.run_leave,
    Stmt.runAll_returned]

/-- The check of the result code. -/
theorem exists_runAll_checkCode (p : Procedure) (steps : List Step) :
    ∃ answer, (∀ x ∈ answer, IsAnswer p x) ∧
      (Stmt.runAll holds (shown v (checkCode p)) ⟨.onward, steps⟩ = ⟨.onward, steps ++ answer⟩ ∨
        Stmt.runAll holds (shown v (checkCode p)) ⟨.onward, steps⟩ =
          ⟨.seeking goodExit, steps ++ answer⟩) := by
  cases hd : p.usesDatabase with
  | false =>
    have hquiet : ∀ l ∈ checkCode p, isQuiet l.stmt = true := by
      simp [checkCode, hd, remark, always, isQuiet, Stmt.isPlain]
    obtain ⟨asides, hasides, hrun⟩ := exists_runAll_quiet v holds hquiet steps
    exact ⟨asides, fun x hx => .aside (hasides x hx), .inl hrun⟩
  | true =>
    let failure := Expr.differ (.name "rc") (.name "SQLITE_OK")
    let nulls := if p.hasProjection then [] else [nullResult]
    have hlines : checkCode p = [remark .verbose
        "// 7. Ensure the procedure executed successfully"] ++
          [Stmt.block failure (nulls ++ [Stmt.jump goodExit]), .blank].map always := by
      simp [checkCode, hd, failure, nulls]
    have hnulls : ∀ s ∈ nulls, s = nullResult := by
      simp only [nulls]
      cases p.hasProjection <;> simp
    have hplain : ∀ s ∈ nulls, s.isPlain = true := fun s hs => hnulls s hs ▸ rfl
    have hquiet : ∀ l ∈ [remark .verbose "// 7. Ensure the procedure executed successfully"],
        isQuiet l.stmt = true := by decide
    obtain ⟨asides, hasides, hremark⟩ := exists_runAll_quiet v holds hquiet steps
    have haside : ∀ x ∈ asides, IsAnswer p x := fun x hx => .aside (hasides x hx)
    rw [hlines, shown_append, Stmt.runAll_append, hremark, shown_map_always, Stmt.runAll_cons,
      Stmt.run_block]
    cases holds (steps ++ asides) failure with
    | false =>
      refine ⟨asides ++ [Step.tested failure false, .done .blank], ?_, .inl ?_⟩
      · simp only [List.forall_mem_append, List.forall_mem_cons]
        exact ⟨haside, .code false, .aside (isAside_of_isQuiet rfl), by simp⟩
      · rw [if_neg Bool.false_ne_true, Stmt.runAll_cons, Stmt.run_plain rfl, Stmt.runAll_nil]
        simp
    | true =>
      refine ⟨asides ++ Step.tested failure true :: nulls.map .done, ?_, .inr ?_⟩
      · simp only [List.forall_mem_append, List.forall_mem_cons, List.forall_mem_map]
        exact ⟨haside, .code true, fun s hs => hnulls s hs ▸ .null⟩
      · have hbody : Stmt.runAll holds (nulls ++ [Stmt.jump goodExit])
            ⟨.onward, steps ++ asides ++ [Step.tested failure true]⟩ = _ :=
          Stmt.runAll_jump hplain (by simp) _
        rw [if_pos rfl, hbody, Stmt.runAll_seeking (by simp)]
        simp

/-- The lines that give the result come one after the other, up to a jump to the end. -/
theorem exists_giveResult_eq (p : Procedure) :
    ∃ lines, giveResult p = lines ++ [Stmt.jump goodExit, .blank].map always ∧
      ∀ l ∈ lines, l.stmt.isPlain = true ∧ IsAnswer p (.done l.stmt) := by
  have hquiet : ∀ {l : Line}, isQuiet l.stmt = true →
      l.stmt.isPlain = true ∧ IsAnswer p (.done l.stmt) := fun h =>
    ⟨isPlain_of_isQuiet h, .aside (isAside_of_isQuiet h)⟩
  refine ⟨_, rfl, ?_⟩
  rw [List.forall_mem_append]
  refine ⟨fun l hl => hquiet ?_, ?_⟩
  · revert l
    decide
  · cases p.hasProjection with
    | true =>
      simp only [if_true, List.forall_mem_cons]
      exact ⟨hquiet rfl, hquiet rfl, by simp⟩
    | false =>
      cases ho : scalarOutput? p with
      | some a =>
        simp only [Bool.false_eq_true, if_false, List.forall_mem_cons]
        exact ⟨hquiet rfl, hquiet rfl, ⟨rfl, .scalar ho⟩, by simp⟩
      | none =>
        simp only [Bool.false_eq_true, if_false, List.forall_mem_cons]
        exact ⟨hquiet rfl, ⟨rfl, .null⟩, by simp⟩

/-- The result is given on the way to the end. -/
theorem exists_runAll_giveResult (p : Procedure) (steps : List Step) :
    ∃ answer, (∀ x ∈ answer, IsAnswer p x) ∧
      Stmt.runAll holds (shown v (giveResult p)) ⟨.onward, steps⟩ =
        ⟨.seeking goodExit, steps ++ answer⟩ := by
  obtain ⟨lines, hlines, hresult⟩ := exists_giveResult_eq p
  have hshown : ∀ s ∈ shown v lines, s.isPlain = true ∧ IsAnswer p (.done s) := by
    intro s hs
    obtain ⟨l, hl, rfl⟩ := mem_shown hs
    exact hresult l hl
  refine ⟨(shown v lines).map .done, List.forall_mem_map.2 fun s hs => (hshown s hs).2, ?_⟩
  rw [hlines, shown_append, shown_map_always]
  exact Stmt.runAll_jump (fun s hs => (hshown s hs).1) (by simp) steps

theorem release_eq (p : Procedure) : release p = always (.label goodExit) ::
    ([remark .verbose "// 10. Cleanup Outtie arguments"] ++
      (((outputs p).map fun a => .performWhen (.name a.name) (.call (releaser a.type)
        [.name a.name])).map always ++ [⟨.normal, .idle "Avoid empty block warning"⟩])) := by
  simp [release, outputs]

/-- The exit for all other calls. -/
theorem exists_runAll_release (p : Procedure) (steps : List Step) :
    ∃ (outcomes : List (Argument × Bool)) (asides rest : List Step),
      outcomes.map Prod.fst = outputs p ∧ (∀ x ∈ asides, IsAside x) ∧ (∀ x ∈ rest, IsAside x) ∧
      Stmt.runAll holds (shown v (release p)) ⟨.seeking goodExit, steps⟩ =
        ⟨.onward, steps ++ asides ++ outcomes.flatMap outputSteps ++ rest⟩ := by
  have hremark : ∀ l ∈ [remark .verbose "// 10. Cleanup Outtie arguments"],
      isQuiet l.stmt = true := by decide
  have hidle : ∀ l ∈ [(⟨.normal, .idle "Avoid empty block warning"⟩ : Line)],
      isQuiet l.stmt = true := by decide
  obtain ⟨asides, hasides, hremarkRun⟩ := exists_runAll_quiet v holds hremark steps
  obtain ⟨outcomes, houtcomes, houtputs⟩ := Stmt.exists_runAll_performWhen holds (outputs p)
    (fun a => .name a.name) (fun a => .call (releaser a.type) [.name a.name])
    (steps ++ asides)
  obtain ⟨rest, hrest, hidleRun⟩ :=
    exists_runAll_quiet v holds hidle (steps ++ asides ++ outcomes.flatMap outputSteps)
  refine ⟨outcomes, asides, rest, houtcomes, hasides, hrest, ?_⟩
  rw [release_eq, shown_always_cons, Stmt.runAll_cons, Stmt.run_label, shown_append,
    Stmt.runAll_append, hremarkRun, shown_append, Stmt.runAll_append, shown_map_always, houtputs]
  exact hidleRun

/-- There are no labels before the exits. -/
theorem ne_label_service (p : Procedure) : ∀ l ∈ service p, ∀ name, l.stmt ≠ .label name := by
  have hsetup : ∀ l ∈ setup p, ∀ name, l.stmt ≠ .label name := by
    intro l hl name hlabel
    have hquiet := isQuiet_setup p l hl
    rw [hlabel] at hquiet
    cases hquiet
  have hmiddle : ∀ l ∈ middle p, ∀ name, l.stmt ≠ .label name := by
    simp only [middle, releaseInputs, List.forall_mem_append, List.forall_mem_cons,
      List.forall_mem_map]
    simp [remark, always]
  have hcode : ∀ l ∈ checkCode p, ∀ name, l.stmt ≠ .label name := by
    cases hd : p.usesDatabase <;> simp [checkCode, hd, remark, always]
  have hresult : ∀ l ∈ giveResult p, ∀ name, l.stmt ≠ .label name := by
    cases hp : p.hasProjection <;> cases ho : scalarOutput? p <;>
      simp [giveResult, hp, ho, remark, always, nullResult]
  simp only [service, List.forall_mem_append]
  exact ⟨hsetup, hmiddle, hcode, hresult⟩

theorem ne_goodExit_rejection (p : Procedure) : ∀ l ∈ rejection p, l.stmt ≠ .label goodExit := by
  have hexit : badExit ≠ goodExit := by decide
  cases hp : p.hasProjection <;> simp [rejection, hp, always, hexit]

/-- Lines without labels show none. -/
theorem labels_shown {ls : List Line} (h : ∀ l ∈ ls, ∀ name, l.stmt ≠ .label name) :
    (shown v ls).filterMap Stmt.label? = [] := by
  refine List.filterMap_eq_nil_iff.2 fun s hs => ?_
  obtain ⟨l, hl, rfl⟩ := mem_shown hs
  cases hstmt : l.stmt with
  | label name => exact absurd hstmt (h l hl name)
  | _ => rfl

/-- Each exit is there once, and nothing else is a label. -/
theorem labels_function (name : String) (p : Procedure) :
    (function v name p).body.filterMap Stmt.label? = [badExit, goodExit] := by
  have hcomplaint : (complaint p).filterMap Stmt.label? = [] :=
    List.filterMap_eq_nil_iff.2 fun s hs => (complaint_cases s hs).2.1
  have hbody : (function v name p).body = shown v (body p) := rfl
  have hrest : ∀ l ∈ (release p).tail, ∀ name, l.stmt ≠ .label name := by
    rw [release_eq, List.tail_cons]
    simp only [List.forall_mem_append, List.forall_mem_cons, List.forall_mem_map]
    simp [remark, always]
  have hlabel : ∀ (name : String) (ss : List Stmt),
      (Stmt.label name :: ss).filterMap Stmt.label? = name :: ss.filterMap Stmt.label? :=
    fun _ _ => rfl
  have hreleased : (shown v (release p)).filterMap Stmt.label? = [goodExit] := by
    have hrelease : shown v (release p) = .label goodExit :: shown v (release p).tail := by
      rw [release_eq, shown_always_cons, List.tail_cons]
    rw [hrelease, hlabel, labels_shown v hrest]
  have hrejected : (shown v (rejection p)).filterMap Stmt.label? = [badExit] := by
    rw [rejection_eq, shown_map_always, hlabel, List.filterMap_append, hcomplaint]
    rfl
  simp only [hbody, body_eq_parts, shown_append, List.filterMap_append,
    labels_shown v (ne_label_checks p), labels_shown v (ne_label_service p), hrejected, hreleased]
  rfl

/-- What follows the first releases goes to the end, from the check of the result code or behind
the result. -/
theorem exists_runAll_answer (p : Procedure) (steps : List Step) :
    ∃ answer, (∀ x ∈ answer, IsAnswer p x) ∧
      Stmt.runAll holds (shown v (checkCode p ++ giveResult p)) ⟨.onward, steps⟩ =
        ⟨.seeking goodExit, steps ++ answer⟩ := by
  have hresult : .label goodExit ∉ shown v (giveResult p) := label_notMem_shown fun l hl =>
    ne_label_service p l (by simp [service, hl]) goodExit
  obtain ⟨code, hcode, hrun⟩ := exists_runAll_checkCode v holds p steps
  rw [shown_append, Stmt.runAll_append]
  obtain hrun | hrun := hrun
  · obtain ⟨result, hgiven, hgive⟩ := exists_runAll_giveResult v holds p (steps ++ code)
    refine ⟨code ++ result, List.forall_mem_append.2 ⟨hcode, hgiven⟩, ?_⟩
    rw [hrun, hgive, List.append_assoc]
  · exact ⟨code, hcode, by rw [hrun, Stmt.runAll_seeking hresult]⟩

theorem early_append (p : Procedure) (before between answer steps : List Step) :
    early p before between answer ++ steps = early p before between (answer ++ steps) := by
  simp [early]

/-- A call that passes the checks is served, and goes to the end. -/
theorem exists_runAll_service (p : Procedure) (steps : List Step) :
    ∃ prepared between answer, (∀ x ∈ prepared, IsAside x) ∧ (∀ x ∈ between, IsAside x) ∧
      (∀ x ∈ answer, IsAnswer p x) ∧
      Stmt.runAll holds (shown v (service p)) ⟨.onward, steps⟩ =
        ⟨.seeking goodExit, early p (steps ++ prepared) between answer⟩ := by
  obtain ⟨prepared, hprepared, hsetup⟩ := exists_runAll_quiet v holds (isQuiet_setup p) steps
  obtain ⟨between, hbetween, hcall⟩ := exists_runAll_call v holds p (steps ++ prepared)
  obtain ⟨answer, hanswer, hrun⟩ :=
    exists_runAll_answer v holds p (early p (steps ++ prepared) between [.done .blank])
  refine ⟨prepared, between, .done .blank :: answer, hprepared, hbetween,
    List.forall_mem_cons.2 ⟨.aside (isAside_of_isQuiet rfl), hanswer⟩, ?_⟩
  rw [service, shown_append, Stmt.runAll_append, hsetup, shown_append, Stmt.runAll_append, hcall]
  exact hrun.trans (by rw [early_append, List.singleton_append])

/-- What the runs of a wrapper come to. -/
theorem isWrapperRun_run (v : Verbosity) (name : String) (p : Procedure) (holds : Outcomes) :
    IsWrapperRun p ((function v name p).run holds) := by
  have hchecks := guardedRun_checks v holds p []
  have hbody : (function v name p).run holds =
      Stmt.runAll holds (shown v (body p)) ⟨.onward, []⟩ := rfl
  rw [hbody, body_eq_parts, shown_append, Stmt.runAll_append]
  generalize hr : Stmt.runAll holds (shown v (checks p)) ⟨.onward, []⟩ = r at hchecks
  cases hchecks with
  | @left checked h condition hhold =>
    -- everything is passed over up to the exit for wrong arguments
    obtain ⟨rejected, hrejected, hrun⟩ := exists_runAll_rejection v holds p checked
    have hskip : .label badExit ∉ shown v (service p) :=
      label_notMem_shown fun l hl => ne_label_service p l hl badExit
    rw [List.nil_append, shown_append, Stmt.runAll_append, Stmt.runAll_seeking hskip, shown_append,
      Stmt.runAll_append, hrun, Stmt.runAll_returned]
    exact .refused (fun x hx => isCheck_of_isGuardStep (h x hx)) hhold hrejected
  | @passed checked h hfail =>
    obtain ⟨prepared, between, answer, hprepared, hbetween, hanswer, hrun⟩ :=
      exists_runAll_service v holds p checked
    obtain ⟨outcomes, asides, rest, houtcomes, hasides, hrest, hrelease⟩ :=
      exists_runAll_release v holds p (early p (checked ++ prepared) between answer)
    have hskip : .label goodExit ∉ shown v (rejection p) :=
      label_notMem_shown (ne_goodExit_rejection p)
    have hchecked : ∀ x ∈ checked, IsAside x := fun x hx =>
      ⟨(isCheck_of_isGuardStep (h x hx)).toIsMute, fun condition heq => hfail condition (heq ▸ hx)⟩
    rw [List.nil_append, shown_append, Stmt.runAll_append, hrun, shown_append, Stmt.runAll_append,
      Stmt.runAll_seeking hskip, hrelease, early_append, List.append_assoc]
    exact .accepted (List.forall_mem_append.2 ⟨hchecked, hprepared⟩) hbetween
      (List.forall_mem_append.2 ⟨hanswer, fun x hx => .aside (hasides x hx)⟩) houtcomes hrest

end CqlGlue.SqliteWrapper
