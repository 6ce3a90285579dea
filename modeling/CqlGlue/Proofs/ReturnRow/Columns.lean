import CqlGlue.Proofs.ReturnRow.References
import CqlGlue.Proofs.Table
import Mathlib.Data.List.Nodup
import Mathlib.Data.List.Perm.Basic

/-!
# The columns of a return row

The structure of a row lists values before references, while the tables of types and offsets
keep the declared order. Both hold the same members, and no two of them have one name where the
outputs have names of their own.

## Main definitions
* `declaredMembers` are the members in the declared order.
* `ownMembers` are the names of the members that a row has besides those of arguments.

## Main statements
* `members_perm` says that the structure holds the declared members.
* `nodup_offsets_iff` says when their names differ.
-/

namespace CqlGlue.ReturnRow

/-! ## Members -/

/-- The members in the declared order. -/
def declaredMembers (p : Procedure) : List Member :=
  p.outArgs.map Member.ofArgument ++
  (if p.usesDatabase then [⟨"cql_int32", "__rc", false⟩] else []) ++
  (if p.hasProjection then [resultNumber, resultReference] else [])

/-- The structure holds the declared members in another order. -/
theorem members_perm (p : Procedure) : (members p).Perm (declaredMembers p) := by
  have hargs : (p.outArgs.filter (!·.type.isRef) ++ p.outArgs.filter (·.type.isRef)).Perm
      p.outArgs := by
    apply List.perm_append_comm.trans
    exact List.filter_append_perm (·.type.isRef) p.outArgs
  rw [members, valueMembers, referenceMembers_eq, declaredMembers, argumentReferences]
  generalize (if p.usesDatabase then [_] else []) = code
  generalize (if p.hasProjection then [_, _] else []) = result
  rw [← List.append_assoc]
  apply List.Perm.append_right result
  calc _ = (p.outArgs.filter (!·.type.isRef)).map Member.ofArgument ++
          (code ++ (p.outArgs.filter (·.type.isRef)).map Member.ofArgument) := List.append_assoc ..
    List.Perm _ ((p.outArgs.filter (!·.type.isRef)).map Member.ofArgument ++
          ((p.outArgs.filter (·.type.isRef)).map Member.ofArgument ++ code)) :=
        List.perm_append_comm.append_left _
    _ = (p.outArgs.filter (!·.type.isRef) ++ p.outArgs.filter (·.type.isRef)).map
          Member.ofArgument ++ code := by rw [List.map_append, List.append_assoc]
    List.Perm _ (p.outArgs.map Member.ofArgument ++ code) :=
        (hargs.map Member.ofArgument).append_right code

theorem map_name_declaredMembers (p : Procedure) :
    (declaredMembers p).map Member.name = offsets p := by
  simp only [declaredMembers, offsets, List.map_append, List.map_map]
  congr 1
  · congr 1
    split <;> rfl
  · split <;> rfl

/-- The names of the members that a row has besides those of arguments. -/
def ownMembers (p : Procedure) : List String :=
  (if p.usesDatabase then ["__rc"] else []) ++
    if p.hasProjection then ["__result_long", "__result"] else []

theorem offsets_eq (p : Procedure) : offsets p = p.outArgs.map (·.name) ++ ownMembers p :=
  List.append_assoc ..

/-- The offsets differ exactly where the outputs have names of their own. -/
theorem nodup_offsets_iff {p : Procedure} : (offsets p).Nodup ↔
    (p.outArgs.map (·.name)).Nodup ∧ ∀ a ∈ p.outArgs, a.name ∉ ownMembers p := by
  have hown : (ownMembers p).Nodup := by
    rw [ownMembers]
    cases p.usesDatabase <;> cases p.hasProjection <;> decide
  rw [offsets_eq]
  exact Table.nodup_map_append_iff hown

/-- Names of arguments differ from the names of the members that every row has. -/
theorem nodup_offsets {p : Procedure} (hnodup : (p.args.map (·.name)).Nodup)
    (hplain : ∀ a ∈ p.args, ¬ "__".toList <+: a.name.toList) : (offsets p).Nodup := by
  have hreserved : ∀ x ∈ ownMembers p, "__".toList <+: x.toList := by
    rw [ownMembers]
    cases p.usesDatabase <;> cases p.hasProjection <;> decide
  refine nodup_offsets_iff.2 ⟨List.Sublist.nodup (List.filter_sublist.map _) hnodup, ?_⟩
  exact fun a ha hmem => hplain a (List.mem_of_mem_filter ha) (hreserved _ hmem)

/-! ## Macros -/

/-- A row without references has no macros for a block of them. -/
theorem refsMacros_eq (p : Procedure) :
    (refsMacros p).map Prod.fst =
      if 0 < refCount p then [refsCountMacro p, refsOffsetMacro p] else [] := by
  rw [refsMacros, firstRef?_eq, refCount_eq]
  cases h : argumentReferences p with
  | nil => cases p.hasProjection <;> rfl
  | cons m ms => simp

theorem refCount_le_fieldCount (p : Procedure) : refCount p ≤ fieldCount p := by
  have hle := List.length_filter_le (·.type.isRef) p.outArgs
  rw [refCount, fieldCount]
  cases p.hasProjection <;> simp <;> omega

/-- Where there is no row there are no macros. -/
theorem refsMacros_eq_nil {p : Procedure} (h : isEmpty p = true) : refsMacros p = [] := by
  have hcount : ¬ 0 < refCount p := by
    have := refCount_le_fieldCount p
    simp only [isEmpty, beq_iff_eq] at h
    omega
  simpa [hcount] using refsMacros_eq p

end CqlGlue.ReturnRow
