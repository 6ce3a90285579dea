import CqlGlue.Bindings.SqliteWrapper
import Mathlib.Data.List.Basic

/-!
# The lines of wrappers

A wrapper calls its procedure, and before that it checks and takes the values it is given. All its
other lines are of a few kinds, which are listed here once; what they have in common is then a
matter of one look at each kind.

## Main definitions
* `IsSideLine` lists the other lines.

## Main statements
* `isSideLine_clearResult` and those that follow: which parts of a body are made of such lines.
* `flatMap_shown`: what no comment has part in does not depend on the verbosity.
-/

namespace CqlGlue.SqliteWrapper

open Code

/-- The lines of a wrapper besides the call and the lines that check and take the values. -/
inductive IsSideLine (p : Procedure) : Line → Prop where
  | remark {least : Verbosity} (h : least ≠ .quiet) (text : String) :
      IsSideLine p (remark least text)
  | blank : IsSideLine p (always .blank)
  | clear : IsSideLine p (always (.assign (.name "*result") (.name "NULL")))
  | output {a : Argument} (ha : a ∈ p.args) : IsSideLine p (always (outputVariable a))
  | code : IsSideLine p (always (.define "cql_code" "rc" (.name "SQLITE_OK")))
  | database : IsSideLine p (always (.define "sqlite3*" "db"
      (.call "sqlite3_context_db_handle" [.name "context"])))
  | place : IsSideLine p (always (.define (p.name ++ "_result_set_ref") "_data_result_set_"
      (.name "NULL")))
  | release {a : Argument} (ha : a ∈ p.args) :
      IsSideLine p (always (.perform (.call (releaser a.type) [.name a.name])))
  | failure (silent : Bool) : IsSideLine p (always
      (.block (.differ (.name "rc") (.name "SQLITE_OK"))
        ((if silent then [] else [nullResult]) ++ [.jump goodExit])))
  | table : IsSideLine p (always (.assign (.name "*result")
      (.cast "cql_result_set_ref" (.name "_data_result_set_"))))
  | scalar {a : Argument} (ha : a ∈ p.args) : IsSideLine p (always
      (.perform (.call (resultWriter a) [.name "context", .name a.name])))
  | null : IsSideLine p (always nullResult)
  | finish : IsSideLine p (always (.jump goodExit))
  | exit {name : String} (h : name ∈ [badExit, goodExit]) : IsSideLine p (always (.label name))
  | error : IsSideLine p (always (.perform (.call "sqlite3_result_error"
      [.name "context", .name "\"CQL extension: Invalid procedure arguments\"", .name "-1"])))
  | leave : IsSideLine p (always (.leave none))
  | releaseSet {a : Argument} (ha : a ∈ p.args) : IsSideLine p (always
      (.performWhen (.name a.name) (.call (releaser a.type) [.name a.name])))
  | idle : IsSideLine p ⟨.normal, .idle "Avoid empty block warning"⟩

/-- Statements that are always printed are shown at every verbosity. -/
theorem shown_map_always (v : Verbosity) (ss : List Stmt) : shown v (ss.map always) = ss := by
  induction ss with
  | nil => rfl
  | cons s ss ih => rw [List.map_cons, shown_always_cons, ih]

variable {p : Procedure}

theorem isSideLine_clearResult : ∀ l ∈ clearResult p, IsSideLine p l := by
  cases hp : p.hasProjection with
  | false => simp [clearResult, hp]
  | true =>
    simp only [clearResult, hp, if_true, List.forall_mem_cons]
    exact ⟨.remark (by decide) _, .clear, .blank, by simp⟩

theorem isSideLine_dependencies : ∀ l ∈ dependencies p, IsSideLine p l := by
  have hremark : IsSideLine p (remark .verbose "// 4. Initialize procedure dependencies") :=
    .remark (by decide) _
  cases hd : p.usesDatabase <;> cases hp : p.hasProjection <;>
    simp [dependencies, hd, hp, hremark, IsSideLine.blank, IsSideLine.code, IsSideLine.database,
      IsSideLine.place]

theorem isSideLine_releaseInputs : ∀ l ∈ releaseInputs p, IsSideLine p l := by
  simp only [releaseInputs, List.forall_mem_append, List.forall_mem_cons, List.forall_mem_map]
  exact ⟨⟨⟨.remark (by decide) _, by simp⟩, fun a ha => .release (List.mem_of_mem_filter ha)⟩,
    .blank, by simp⟩

theorem isSideLine_checkCode : ∀ l ∈ checkCode p, IsSideLine p l := by
  have hremark : IsSideLine p (remark .verbose
      "// 7. Ensure the procedure executed successfully") := .remark (by decide) _
  cases hd : p.usesDatabase <;>
    simp [checkCode, hd, hremark, IsSideLine.blank, IsSideLine.failure p.hasProjection]

theorem isSideLine_giveResult : ∀ l ∈ giveResult p, IsSideLine p l := by
  have hremark : ∀ text, IsSideLine p (remark .verbose text) ∧
      IsSideLine p (remark .veryVerbose text) :=
    fun text => ⟨.remark (by decide) text, .remark (by decide) text⟩
  cases hp : p.hasProjection with
  | true => simp [giveResult, hp, hremark, IsSideLine.blank, IsSideLine.table, IsSideLine.finish]
  | false =>
    cases ho : scalarOutput? p with
    | some a =>
      have ha : a ∈ p.args := List.mem_of_mem_filter (List.mem_of_find?_eq_some ho)
      simp [giveResult, hp, ho, hremark, IsSideLine.blank, IsSideLine.scalar ha, IsSideLine.finish]
    | none =>
      simp [giveResult, hp, ho, hremark, IsSideLine.blank, IsSideLine.null, IsSideLine.finish]

theorem isSideLine_rejection : ∀ l ∈ rejection p, IsSideLine p l := by
  have hexit : IsSideLine p (always (.label badExit)) := .exit (by decide)
  cases hp : p.hasProjection <;>
    simp [rejection, hp, hexit, IsSideLine.blank, IsSideLine.error, IsSideLine.leave]

theorem isSideLine_release : ∀ l ∈ release p, IsSideLine p l := by
  simp only [SqliteWrapper.release, List.forall_mem_append, List.forall_mem_cons,
    List.forall_mem_map]
  exact ⟨⟨⟨.exit (by decide), .remark (by decide) _, by simp⟩,
    fun a ha => .releaseSet (List.mem_of_mem_filter (List.mem_of_mem_filter ha))⟩, .idle, by simp⟩

/-- Whatever a verbosity may hide. -/
theorem isSideLine_of_least_ne {l : Line} (hl : l ∈ body p) (h : l.least ≠ .quiet) :
    IsSideLine p l := by
  have hshown : ∀ s, l ≠ always s := fun s hs => h (hs ▸ rfl)
  simp only [body, List.mem_append] at hl
  rcases hl with (((((((((hl | hl) | hl) | hl) | hl) | hl) | hl) | hl) | hl) | hl) | hl
  · exact isSideLine_clearResult l hl
  · simp only [checkCount, List.mem_cons, List.not_mem_nil, hshown, or_false] at hl
    exact hl ▸ .remark (by decide) _
  · simp only [checkTypes, List.mem_append, List.mem_cons, List.mem_map, List.not_mem_nil, hshown,
      or_false] at hl
    rcases hl with rfl | ⟨a, -, rfl⟩
    · exact .remark (by decide) _
    · exact absurd rfl (hshown _)
  · simp only [argumentVariables, List.mem_append, List.mem_cons, List.mem_map, List.not_mem_nil,
      hshown, or_false] at hl
    rcases hl with (rfl | ⟨a, -, rfl⟩) | ⟨a, -, rfl⟩
    · exact .remark (by decide) _
    · exact absurd rfl (hshown _)
    · exact absurd rfl (hshown _)
  · exact isSideLine_dependencies l hl
  · simp only [performCall, List.mem_cons, List.not_mem_nil, hshown, or_false] at hl
    exact hl ▸ .remark (by decide) _
  · exact isSideLine_releaseInputs l hl
  · exact isSideLine_checkCode l hl
  · exact isSideLine_giveResult l hl
  · exact isSideLine_rejection l hl
  · exact isSideLine_release l hl

/-- What statements come to does not depend on the verbosity, where what it may hide comes to
nothing. -/
theorem flatMap_shown {β : Type} {g : Stmt → List β} (v : Verbosity) {ls : List Line}
    (h : ∀ l ∈ ls, l.least ≠ .quiet → g l.stmt = []) :
    (shown v ls).flatMap g = ls.flatMap fun l => g l.stmt := by
  induction ls with
  | nil => rfl
  | cons l ls ih =>
    have hrest := ih fun m hm => h m (List.mem_cons_of_mem l hm)
    have hcons : shown v (l :: ls) =
        (if v.atLeast l.least then [l.stmt] else []) ++ shown v ls := by
      cases hl : v.atLeast l.least <;> simp [shown, hl]
    rw [hcons, List.flatMap_append, hrest, List.flatMap_cons]
    cases hl : v.atLeast l.least with
    | true => simp
    | false =>
      have hleast : l.least ≠ .quiet := by
        intro hquiet
        rw [hquiet] at hl
        cases v <;> cases hl
      simp [h l List.mem_cons_self hleast]

end CqlGlue.SqliteWrapper
