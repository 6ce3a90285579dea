import CqlGlue.Bindings.Code
import Mathlib.Data.List.Basic

/-!
# Running C code

What happens while the statements of a function are carried out, as far as their order goes. What
a condition comes to is not known, so a run is determined by the outcomes of conditions, each of
which may depend on all that happened before. A jump goes on behind its label, which is looked for
behind the jump; a run that does not find it ends while it is still looking.

## Main definitions
* `Step` is something that happens, `Run` is where a run has come and what happened until then.
* `Stmt.runAll` carries out statements, `Function.run` those of a function.

## Main statements
* `Stmt.runAll_plain` is about statements that follow one another.
* `Stmt.guardedRun_runAll` is about statements that may leave by an exit.
* `Stmt.runAll_seeking` passes over what stands between a jump and its label.
-/

namespace CqlGlue.Code

/-- Something that happens in a run. -/
inductive Step where
  /-- A statement is carried out. -/
  | done (s : Stmt)
  /-- A condition is tested, with what it comes to. -/
  | tested (condition : Expr) (outcome : Bool)

/-- Where a run is. -/
inductive Control where
  | onward
  /-- Behind a jump, before the label is found. -/
  | seeking (label : String)
  | returned
  deriving DecidableEq, Repr

/-- What conditions come to, each after the steps before it. -/
abbrev Outcomes := List Step → Expr → Bool

/-- How far a run has come. -/
structure Run where
  control : Control
  /-- What happened until then, in order. -/
  steps : List Step

namespace Stmt

mutual

/-- Carries out a statement. -/
def run (holds : Outcomes) (s : Stmt) (r : Run) : Run :=
  match r.control, s with
  | .returned, _ => r
  | .seeking l, label name => if name = l then ⟨.onward, r.steps⟩ else r
  | .seeking _, _ => r
  | .onward, leave _ => ⟨.returned, r.steps⟩
  | .onward, jump l => ⟨.seeking l, r.steps⟩
  | .onward, jumpWhen c l _ =>
    ⟨if holds r.steps c then .seeking l else .onward, r.steps ++ [Step.tested c (holds r.steps c)]⟩
  | .onward, performWhen c e =>
    ⟨.onward, r.steps ++
      if holds r.steps c then [.tested c true, .done (perform e)] else [.tested c false]⟩
  | .onward, block c body =>
    if holds r.steps c then runAll holds body ⟨.onward, r.steps ++ [Step.tested c true]⟩
    else ⟨.onward, r.steps ++ [Step.tested c false]⟩
  | .onward, s => ⟨.onward, r.steps ++ [Step.done s]⟩

/-- Carries out statements in order. -/
def runAll (holds : Outcomes) (ss : List Stmt) (r : Run) : Run :=
  match ss with
  | [] => r
  | s :: ss => runAll holds ss (run holds s r)

end

/-- Statements after which the next one is carried out, whatever happens. -/
def isPlain : Stmt → Bool
  | leave _ | jump _ | jumpWhen _ _ _ | performWhen _ _ | block _ _ => false
  | _ => true

/-- The label that a statement is. To look for labels only behind a jump is right where no label
is met twice and all jumps go forward. -/
def label? : Stmt → Option String
  | label name => some name
  | _ => none

end Stmt

/-- The run of a function. -/
def Function.run (holds : Outcomes) (f : Function) : Run := Stmt.runAll holds f.body ⟨.onward, []⟩

namespace Stmt

variable {holds : Outcomes}

@[simp] theorem runAll_nil (r : Run) : runAll holds [] r = r := by rw [runAll]

@[simp] theorem runAll_cons (s : Stmt) (ss : List Stmt) (r : Run) :
    runAll holds (s :: ss) r = runAll holds ss (run holds s r) := by rw [runAll]

theorem runAll_append (ss ts : List Stmt) (r : Run) :
    runAll holds (ss ++ ts) r = runAll holds ts (runAll holds ss r) := by
  induction ss generalizing r with
  | nil => simp
  | cons s ss ih => simp [ih]

/-- Nothing happens in a function that has returned. -/
theorem runAll_returned (ss : List Stmt) (steps : List Step) :
    runAll holds ss ⟨.returned, steps⟩ = ⟨.returned, steps⟩ := by
  induction ss with
  | nil => simp
  | cons s ss ih =>
    have hs : run holds s ⟨.returned, steps⟩ = ⟨.returned, steps⟩ := by cases s <;> simp [run]
    rw [runAll_cons, hs, ih]

/-- Nothing happens before the label of a jump. -/
theorem runAll_seeking {l : String} {ss : List Stmt} (h : label l ∉ ss) (steps : List Step) :
    runAll holds ss ⟨.seeking l, steps⟩ = ⟨.seeking l, steps⟩ := by
  induction ss with
  | nil => simp
  | cons s ss ih =>
    rw [List.mem_cons, not_or] at h
    have hs : run holds s ⟨.seeking l, steps⟩ = ⟨.seeking l, steps⟩ := by
      cases s with
      | label name =>
        have hne : name ≠ l := fun heq => h.1 (heq ▸ rfl)
        simp [run, hne]
      | _ => simp [run]
    rw [runAll_cons, hs, ih h.2]

/-- A jump goes on behind its label. -/
theorem run_label (l : String) (steps : List Step) :
    run holds (label l) ⟨.seeking l, steps⟩ = ⟨.onward, steps⟩ := by
  simp [run]

theorem run_leave (value : Option Expr) (steps : List Step) :
    run holds (leave value) ⟨.onward, steps⟩ = ⟨.returned, steps⟩ := by
  unfold run
  rfl

theorem run_jump (l : String) (steps : List Step) :
    run holds (jump l) ⟨.onward, steps⟩ = ⟨.seeking l, steps⟩ := by
  unfold run
  rfl

theorem run_jumpWhen (condition : Expr) (l remark : String) (steps : List Step) :
    run holds (jumpWhen condition l remark) ⟨.onward, steps⟩ =
      ⟨if holds steps condition then .seeking l else .onward,
        steps ++ [Step.tested condition (holds steps condition)]⟩ := by
  unfold run
  rfl

theorem run_performWhen (condition e : Expr) (steps : List Step) :
    run holds (performWhen condition e) ⟨.onward, steps⟩ =
      ⟨.onward, steps ++ Step.tested condition (holds steps condition) ::
        if holds steps condition then [.done (perform e)] else []⟩ := by
  unfold run
  cases holds steps condition <;> rfl

theorem run_block (condition : Expr) (body : List Stmt) (steps : List Step) :
    run holds (block condition body) ⟨.onward, steps⟩ =
      if holds steps condition then
        runAll holds body ⟨.onward, steps ++ [Step.tested condition true]⟩
      else ⟨.onward, steps ++ [Step.tested condition false]⟩ := by
  rw [run.eq_def]

theorem run_plain {s : Stmt} (h : s.isPlain = true) (steps : List Step) :
    run holds s ⟨.onward, steps⟩ = ⟨.onward, steps ++ [Step.done s]⟩ := by
  cases s with
  | leave value => cases h
  | jump target => cases h
  | jumpWhen condition target remark => cases h
  | performWhen condition e => cases h
  | block condition body => cases h
  | _ => unfold run; rfl

/-- Statements that follow one another are carried out in order. -/
theorem runAll_plain {ss : List Stmt} (h : ∀ s ∈ ss, s.isPlain = true) (steps : List Step) :
    runAll holds ss ⟨.onward, steps⟩ = ⟨.onward, steps ++ ss.map .done⟩ := by
  induction ss generalizing steps with
  | nil => simp
  | cons s ss ih =>
    rw [runAll_cons, run_plain (h s List.mem_cons_self),
      ih fun t ht => h t (List.mem_cons_of_mem s ht)]
    simp

/-! ## Statements that may leave -/

/-- A statement that is followed by the next one, or leaves by an exit when a condition holds. -/
def IsGuard (exit : String) (s : Stmt) : Prop :=
  s.isPlain = true ∨ ∃ condition remark, s = jumpWhen condition exit remark

/-- A step that guards can make. -/
inductive IsGuardStep (exit : String) (ss : List Stmt) : Step → Prop where
  | done {s : Stmt} (h : s ∈ ss) (hplain : s.isPlain = true) : IsGuardStep exit ss (.done s)
  | tested {condition : Expr} {remark : String} (h : jumpWhen condition exit remark ∈ ss)
      (outcome : Bool) : IsGuardStep exit ss (.tested condition outcome)

theorem IsGuardStep.cons {exit : String} {s : Stmt} {ss : List Stmt} {x : Step}
    (h : IsGuardStep exit ss x) : IsGuardStep exit (s :: ss) x := by
  cases h with
  | done h hplain => exact .done (List.mem_cons_of_mem s h) hplain
  | tested h outcome => exact .tested (List.mem_cons_of_mem s h) outcome

/-- What guards do after some steps: all their conditions fail, or one holds and they leave. -/
inductive GuardedRun (exit : String) (ss : List Stmt) (steps : List Step) : Run → Prop where
  | passed {made : List Step} (h : ∀ x ∈ made, IsGuardStep exit ss x)
      (hfail : ∀ condition, .tested condition true ∉ made) :
      GuardedRun exit ss steps ⟨.onward, steps ++ made⟩
  | left {made : List Step} (h : ∀ x ∈ made, IsGuardStep exit ss x) {condition : Expr}
      (hhold : .tested condition true ∈ made) :
      GuardedRun exit ss steps ⟨.seeking exit, steps ++ made⟩

theorem GuardedRun.cons {exit : String} {s : Stmt} {ss : List Stmt} {steps : List Step} {x : Step}
    {r : Run} (hx : IsGuardStep exit (s :: ss) x) (hfail : ∀ condition, x ≠ .tested condition true)
    (h : GuardedRun exit ss (steps ++ [x]) r) : GuardedRun exit (s :: ss) steps r := by
  have hmade : ∀ {made : List Step}, (∀ y ∈ made, IsGuardStep exit ss y) →
      ∀ y ∈ x :: made, IsGuardStep exit (s :: ss) y := fun h =>
    List.forall_mem_cons.2 ⟨hx, fun y hy => (h y hy).cons⟩
  cases h with
  | passed h hnone =>
    rw [List.append_assoc, List.singleton_append]
    refine .passed (hmade h) fun condition hc => ?_
    obtain hc | hc := List.mem_cons.1 hc
    · exact hfail condition hc.symm
    · exact hnone condition hc
  | left h hhold =>
    rw [List.append_assoc, List.singleton_append]
    exact .left (hmade h) (List.mem_cons_of_mem x hhold)

/-- Guards go on as long as their conditions fail; the first one that holds leaves. -/
theorem guardedRun_runAll {exit : String} {ss : List Stmt} (h : ∀ s ∈ ss, IsGuard exit s)
    (hlabel : label exit ∉ ss) (steps : List Step) :
    GuardedRun exit ss steps (runAll holds ss ⟨.onward, steps⟩) := by
  induction ss generalizing steps with
  | nil =>
    have hnone : GuardedRun exit [] steps ⟨.onward, steps ++ []⟩ := .passed (by simp) (by simp)
    simpa using hnone
  | cons s ss ih =>
    rw [List.mem_cons, not_or] at hlabel
    have hrest := ih (fun t ht => h t (List.mem_cons_of_mem s ht)) hlabel.2
    rw [runAll_cons]
    obtain hplain | ⟨condition, remark, rfl⟩ := h s List.mem_cons_self
    · rw [run_plain hplain]
      exact (hrest _).cons (.done List.mem_cons_self hplain) (by simp)
    · rw [run_jumpWhen]
      cases holds steps condition with
      | false => exact (hrest _).cons (.tested List.mem_cons_self false) (by simp)
      | true =>
        rw [if_pos rfl, runAll_seeking hlabel.2]
        exact .left (by simpa using .tested List.mem_cons_self true) (List.mem_singleton_self _)

/-- Statements up to a jump. -/
theorem runAll_jump {exit : String} {ss ts : List Stmt} (hs : ∀ s ∈ ss, s.isPlain = true)
    (ht : label exit ∉ ts) (steps : List Step) :
    runAll holds (ss ++ jump exit :: ts) ⟨.onward, steps⟩ =
      ⟨.seeking exit, steps ++ ss.map .done⟩ := by
  rw [runAll_append, runAll_plain hs, runAll_cons, run_jump, runAll_seeking ht]

/-- Statements carried out each under a condition of its own. -/
theorem exists_runAll_performWhen (holds : Outcomes) {α : Type} (xs : List α)
    (condition e : α → Expr) (steps : List Step) :
    ∃ outcomes : List (α × Bool), outcomes.map Prod.fst = xs ∧
      runAll holds (xs.map fun x => performWhen (condition x) (e x)) ⟨.onward, steps⟩ =
        ⟨.onward, steps ++ outcomes.flatMap fun o =>
          Step.tested (condition o.1) o.2 :: if o.2 then [.done (perform (e o.1))] else []⟩ := by
  induction xs generalizing steps with
  | nil => exact ⟨[], by simp⟩
  | cons x xs ih =>
    obtain ⟨outcomes, hxs, hrun⟩ := ih (steps ++
      Step.tested (condition x) (holds steps (condition x)) ::
        if holds steps (condition x) then [Step.done (perform (e x))] else [])
    refine ⟨(x, holds steps (condition x)) :: outcomes, by rw [List.map_cons, hxs], ?_⟩
    rw [List.map_cons, runAll_cons, run_performWhen, hrun, List.flatMap_cons, List.append_assoc]

end Stmt

end CqlGlue.Code
