import CqlGlue.Proofs.Bindings.CallConvention
import CqlGlue.Proofs.Sqlite.Lines
import Mathlib.Data.List.Nodup

/-!
# The variables of wrappers

The arguments of a procedure are variables of its wrapper: first those whose values SQL supplies,
in order, then those that are only written. All are declared before the call, whatever lines are
shown, and nothing is declared behind it.

## Main definitions
* `ownVariables` are the other names that a wrapper declares.
* `DeclaresArguments` says of a function that each argument is declared once before the call.

## Main statements
* `declaresArguments` is about all wrappers.
-/

namespace CqlGlue.SqliteWrapper

open Code

/-- The variables of a wrapper that do not belong to arguments. -/
def ownVariables (p : Procedure) : List String :=
  (params p).map (·.name) ++ (Stmt.declaredIn ((dependencies p).map (·.stmt))).map Prod.snd

/-- Before the only call of the procedure, every argument is declared once, and nothing else of
its name; behind it, nothing is declared. -/
def DeclaresArguments (p : Procedure) (f : Function) : Prop :=
  ∃ before after, f.body = before ++ .call (call p) :: after ∧ Stmt.callsIn (before ++ after) = [] ∧
    (∀ a ∈ p.args, (a.storage, a.name) ∈ Stmt.declaredIn before ∧
      ((f.scope before).map Prod.snd).count a.name = 1) ∧ Stmt.declaredIn after = []

/-! ## What lines declare -/

/-- The arguments in the order of their variables. -/
def declaredArgs (p : Procedure) : List Argument :=
  p.inArgs ++ p.args.filter (·.binding == .outOnly)

theorem declaredArgs_perm (p : Procedure) : (declaredArgs p).Perm p.args := by
  have hnot : p.args.filter (·.binding == .outOnly) = p.args.filter (!·.binding.isInput) :=
    List.filter_congr fun a _ => by cases a.binding <;> rfl
  rw [declaredArgs, hnot]
  exact List.filter_append_perm _ p.args

theorem declaredIn_shown {v : Verbosity} {p : Procedure} {ls : List Line} (hls : ls ⊆ body p) :
    Stmt.declaredIn (shown v ls) = Stmt.declaredIn (ls.map (·.stmt)) := by
  have hhidden : ∀ l ∈ ls, l.least ≠ .quiet → l.stmt.declared?.toList = [] := by
    intro l hl hleast
    cases isSideLine_of_least_ne (hls hl) hleast with
    | remark | idle => rfl
    | _ => exact absurd rfl hleast
  rw [Stmt.declaredIn, Stmt.declaredIn, List.filterMap_eq_flatMap_toList,
    List.filterMap_eq_flatMap_toList, flatMap_shown v hhidden, List.flatMap_map]

/-- Lines that declare nothing. -/
theorem declaredIn_eq_nil {ls : List Line} (h : ∀ l ∈ ls, l.stmt.declared? = none) :
    Stmt.declaredIn (ls.map (·.stmt)) = [] :=
  List.filterMap_eq_nil_iff.2 (List.forall_mem_map.2 h)

theorem declaredIn_argumentVariables (p : Procedure) :
    Stmt.declaredIn ((argumentVariables p).map (·.stmt)) =
      (declaredArgs p).map fun a => (a.storage, a.name) := by
  have hinputs : Stmt.declaredIn (p.inArgs.zipIdx.map fun a => inputVariable a.1 a.2) =
      p.inArgs.map fun a => (a.storage, a.name) := by
    have hmap : Stmt.declaredIn (p.inArgs.zipIdx.map fun a => inputVariable a.1 a.2) =
        (p.inArgs.zipIdx.map Prod.fst).map fun a => (a.storage, a.name) := by
      rw [Stmt.declaredIn, List.filterMap_map, List.map_map, ← List.filterMap_eq_map]
      rfl
    rw [hmap, List.zipIdx_map_fst]
  have houtputs : ∀ xs : List Argument, Stmt.declaredIn (xs.map outputVariable) =
      xs.map fun a => (a.storage, a.name) := fun xs => by
    rw [Stmt.declaredIn, List.filterMap_map, ← List.filterMap_eq_map]
    rfl
  have hlines : (argumentVariables p).map (·.stmt) =
      .note "// 3. Marshalled argument initialization" ::
        ((p.inArgs.zipIdx.map fun a => inputVariable a.1 a.2) ++
          (p.args.filter (·.binding == .outOnly)).map outputVariable ++ [Stmt.blank]) := by
    simp [argumentVariables, remark, always, Function.comp_def]
  have hframe : ∀ (text : String) (ss : List Stmt),
      Stmt.declaredIn (.note text :: (ss ++ [Stmt.blank])) = Stmt.declaredIn ss := fun text ss => by
    rw [Stmt.declaredIn, List.filterMap_cons_none rfl, List.filterMap_append]
    exact List.append_nil _
  rw [hlines, hframe, Stmt.declaredIn_append, hinputs, houtputs, declaredArgs, List.map_append]

theorem declaredIn_preparation (v : Verbosity) (p : Procedure) :
    Stmt.declaredIn (shown v (preparation p)) =
      (declaredArgs p).map (fun a => (a.storage, a.name)) ++
        Stmt.declaredIn ((dependencies p).map (·.stmt)) := by
  have hsub : preparation p ⊆ body p := by
    rw [body_eq]
    exact List.subset_append_left ..
  have hclear : ∀ l ∈ clearResult p, l.stmt.declared? = none := by
    cases hp : p.hasProjection with
    | false => simp [clearResult, hp]
    | true =>
      simp only [clearResult, hp, if_true, List.forall_mem_cons]
      exact ⟨rfl, rfl, rfl, by simp⟩
  have hcount : ∀ l ∈ checkCount p, l.stmt.declared? = none := by
    simp only [checkCount, List.forall_mem_cons]
    exact ⟨rfl, rfl, rfl, by simp⟩
  have htypes : ∀ l ∈ checkTypes p, l.stmt.declared? = none := by
    simp only [checkTypes, List.forall_mem_append, List.forall_mem_map, List.forall_mem_cons]
    exact ⟨⟨⟨rfl, by simp⟩, fun _ _ => rfl⟩, rfl, by simp⟩
  rw [declaredIn_shown hsub, preparation]
  simp only [List.map_append, Stmt.declaredIn_append, declaredIn_eq_nil hclear,
    declaredIn_eq_nil hcount, declaredIn_eq_nil htypes, declaredIn_argumentVariables]
  simp [Stmt.declaredIn, remark, Stmt.declared?]

theorem declaredIn_completion (v : Verbosity) (p : Procedure) :
    Stmt.declaredIn (shown v (completion p)) = [] := by
  have hsub : completion p ⊆ body p := by
    rw [body_eq]
    exact fun l hl => List.mem_append_right _ (List.mem_cons_of_mem _ hl)
  have hinputs : ∀ l ∈ releaseInputs p, l.stmt.declared? = none := by
    simp only [releaseInputs, List.forall_mem_append, List.forall_mem_map, List.forall_mem_cons]
    exact ⟨⟨⟨rfl, by simp⟩, fun _ _ => rfl⟩, rfl, by simp⟩
  have hcode : ∀ l ∈ checkCode p, l.stmt.declared? = none := by
    cases hd : p.usesDatabase <;> simp [checkCode, hd, remark, always, Stmt.declared?]
  have hresult : ∀ l ∈ giveResult p, l.stmt.declared? = none := by
    simp only [giveResult, List.forall_mem_append, List.forall_mem_cons]
    refine ⟨⟨⟨rfl, rfl, rfl, rfl, rfl, by simp⟩, ?_⟩, rfl, rfl, by simp⟩
    cases p.hasProjection with
    | true => exact List.forall_mem_cons.2 ⟨rfl, List.forall_mem_singleton.2 rfl⟩
    | false =>
      cases scalarOutput? p with
      | some a =>
        simp only [Bool.false_eq_true, if_false, List.forall_mem_cons]
        exact ⟨rfl, rfl, rfl, by simp⟩
      | none => exact List.forall_mem_cons.2 ⟨rfl, List.forall_mem_singleton.2 rfl⟩
  have hrejection : ∀ l ∈ rejection p, l.stmt.declared? = none := by
    cases hp : p.hasProjection <;> simp [rejection, hp, always, Stmt.declared?]
  have hrelease : ∀ l ∈ release p, l.stmt.declared? = none := by
    simp only [release, List.forall_mem_append, List.forall_mem_map, List.forall_mem_cons]
    exact ⟨⟨⟨rfl, rfl, by simp⟩, fun _ _ => rfl⟩, rfl, by simp⟩
  rw [declaredIn_shown hsub]
  refine declaredIn_eq_nil ?_
  simp only [completion, List.forall_mem_cons, List.forall_mem_append]
  exact ⟨rfl, ⟨⟨⟨hinputs, hcode⟩, hresult⟩, hrejection⟩, hrelease⟩

variable {p : Procedure}

theorem declaresArguments (v : Verbosity) (name : String)
    (hnames : (p.args.map (·.name)).Nodup) (hown : ∀ a ∈ p.args, a.name ∉ ownVariables p) :
    DeclaresArguments p (function v name p) := by
  refine ⟨shown v (preparation p), shown v (completion p), shown_body v p, ?_, fun a ha => ?_,
    declaredIn_completion v p⟩
  · rw [Stmt.callsIn_append, callsIn_shown (calls_preparation p),
      callsIn_shown (calls_completion p), List.nil_append]
  · have hmem : a ∈ declaredArgs p := (declaredArgs_perm p).mem_iff.2 ha
    have hcount : ((declaredArgs p).map (·.name)).count a.name = 1 := by
      rw [((declaredArgs_perm p).map _).count_eq]
      exact List.count_eq_one_of_mem hnames (List.mem_map.2 ⟨a, ha, rfl⟩)
    have hothers := List.count_eq_zero.2 (hown a ha)
    rw [ownVariables, List.count_append] at hothers
    refine ⟨?_, ?_⟩
    · rw [declaredIn_preparation]
      exact List.mem_append_left _ (List.mem_map.2 ⟨a, hmem, rfl⟩)
    · have hscope : ((function v name p).scope (shown v (preparation p))).map Prod.snd =
          (params p).map (·.name) ++ ((declaredArgs p).map (·.name) ++
            (Stmt.declaredIn ((dependencies p).map (·.stmt))).map Prod.snd) := by
        rw [Function.scope, declaredIn_preparation]
        simp [function, Function.comp_def]
      rw [hscope, List.count_append, List.count_append, hcount]
      omega
end CqlGlue.SqliteWrapper
