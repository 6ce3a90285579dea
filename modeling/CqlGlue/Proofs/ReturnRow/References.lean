import CqlGlue.Bindings.ReturnRow
import Mathlib.Data.List.Basic

/-!
# The block of references of a return row

The macros of a row announce a block to the runtime: a first member, and how many members from
there on are counted references to release. The block is what it is announced as exactly when
the row does not hold both a reference of an argument and a result set. Where it holds both,
the number of the result set stands between the two: it lies in the block, and the last
reference, the result set itself, lies behind it.

## Main definitions
* `Announces` is what the macros say, `IsReferenceBlock` what they should say.

## Main statements
* `isReferenceBlock_iff` tells the rows apart whose block is right.
-/

namespace CqlGlue.ReturnRow

/-- The storage of counted references. -/
def referenceStorage : List String :=
  ["cql_string_ref", "cql_blob_ref", "cql_object_ref", "cql_result_set_ref"]

/-- Whether a member is declared with the type of a counted reference. -/
def Member.HoldsReference (m : Member) : Prop := m.storage ∈ referenceStorage

instance (m : Member) : Decidable m.HoldsReference := inferInstanceAs (Decidable (_ ∈ _))

/-- The macros announce the references of the row from a member of this name on. -/
def Announces (p : Procedure) (first : String) : Prop :=
  refsMacros p =
    [(refsCountMacro p, toString (refCount p)), (refsOffsetMacro p, offsetOf p first)]

instance (p : Procedure) (first : String) : Decidable (Announces p first) :=
  inferInstanceAs (Decidable (_ = _))

/-- Of the members in order, the `count` from one called `first` on are references, and no
others are. -/
def IsReferenceBlock (ms : List Member) (first : String) (count : Nat) : Prop :=
  ∃ before block after, ms = before ++ block ++ after ∧
    block.length = count ∧ (block.head?.map Member.name) = some first ∧
    (∀ m ∈ block, m.HoldsReference) ∧ ∀ m ∈ before ++ after, ¬ m.HoldsReference

/-! ## Members and their storage -/

theorem offsetOf_injective {p : Procedure} {a b : String} (h : offsetOf p a = offsetOf p b) :
    a = b := by
  have hname : "cql_offsetof(" ++ rowType p ++ ", " ++ a =
      "cql_offsetof(" ++ rowType p ++ ", " ++ b := (String.append_left_inj ")").1 h
  exact (String.append_right_inj _).1 hname

theorem announces_iff {p : Procedure} {first : String} :
    Announces p first ↔ firstRef? p = some first := by
  unfold Announces refsMacros
  cases h : firstRef? p with
  | none => simp
  | some name =>
    constructor
    · intro he
      simp only [List.cons.injEq, Prod.mk.injEq, and_true, true_and] at he
      rw [offsetOf_injective he]
    · intro he
      cases he
      rfl

theorem storage_mem_referenceStorage (t : CoreType) (notNull : Bool) :
    t.storage notNull ∈ referenceStorage ↔ t.isRef = true := by
  cases t <;> cases notNull <;> decide

/-- The members of arguments are references where their types are. -/
theorem holdsReference_ofArgument (a : Argument) :
    (Member.ofArgument a).HoldsReference ↔ a.type.isRef = true :=
  storage_mem_referenceStorage a.type a.isNotNull

theorem not_holdsReference_of_mem_valueMembers {p : Procedure} {m : Member}
    (h : m ∈ valueMembers p) : ¬ m.HoldsReference := by
  simp only [valueMembers, List.mem_append, List.mem_map, List.mem_filter] at h
  rcases h with ⟨a, ⟨_, ha⟩, rfl⟩ | h
  · rw [holdsReference_ofArgument]
    simpa using ha
  · split at h
    · rw [List.mem_singleton] at h
      subst h
      decide
    · simp at h

/-- The references of arguments in the order of the structure. -/
def argumentReferences (p : Procedure) : List Member :=
  (p.outArgs.filter (·.type.isRef)).map Member.ofArgument

theorem holdsReference_of_mem_argumentReferences {p : Procedure} {m : Member}
    (h : m ∈ argumentReferences p) : m.HoldsReference := by
  simp only [argumentReferences, List.mem_map, List.mem_filter] at h
  obtain ⟨a, ⟨_, ha⟩, rfl⟩ := h
  exact (holdsReference_ofArgument a).2 ha

/-- The member that carries the number of the result set. -/
def resultNumber : Member := ⟨"cql_int64", "__result_long", false⟩

/-- The member that carries the result set. -/
def resultReference : Member := ⟨"cql_result_set_ref", "__result", true⟩

theorem not_holdsReference_resultNumber : ¬ resultNumber.HoldsReference := by decide

theorem holdsReference_resultReference : resultReference.HoldsReference := by decide

theorem referenceMembers_eq (p : Procedure) :
    referenceMembers p =
      argumentReferences p ++ if p.hasProjection then [resultNumber, resultReference] else [] :=
  rfl

theorem refCount_eq (p : Procedure) :
    refCount p = (argumentReferences p).length + if p.hasProjection then 1 else 0 := by
  rw [refCount, argumentReferences, List.length_map]

/-- The announced member is the first reference of the row. -/
theorem firstRef?_eq (p : Procedure) :
    firstRef? p = match (argumentReferences p).head? with
      | some m => some m.name
      | none => if p.hasProjection then some "__result" else none := by
  rw [firstRef?, argumentReferences, List.head?_map, List.head?_filter]
  cases p.outArgs.find? (·.type.isRef) <;> rfl

theorem exists_isRef_iff (p : Procedure) :
    (∃ a ∈ p.outArgs, a.type.isRef = true) ↔ argumentReferences p ≠ [] := by
  simp [argumentReferences, List.filter_eq_nil_iff]

/-! ## The block -/

/-- A block that reaches the last reference of the row holds the number of the result set as
soon as it holds two members. -/
theorem not_isReferenceBlock {before : List Member} {first : String} {count : Nat}
    (h : 1 < count) :
    ¬ IsReferenceBlock (before ++ [resultNumber, resultReference]) first count := by
  rintro ⟨front, block, after, heq, rfl, -, hblock, hothers⟩
  have hlast : [resultReference] <:+ front ++ block ++ after :=
    heq ▸ ⟨before ++ [resultNumber], by simp⟩
  have hafter : after = [] := by
    by_contra hne
    have hsuffix := List.suffix_of_suffix_length_le hlast (List.suffix_append _ after)
      (List.length_pos_iff.2 hne)
    exact hothers resultReference
      (List.mem_append_right _ (hsuffix.subset (List.mem_singleton.2 rfl)))
      holdsReference_resultReference
  subst hafter
  rw [List.append_nil] at heq
  have hpair : [resultNumber, resultReference] <:+ front ++ block := heq ▸ ⟨before, rfl⟩
  have hsuffix := List.suffix_of_suffix_length_le hpair (List.suffix_append _ block) h
  exact not_holdsReference_resultNumber (hblock _ (hsuffix.subset (List.mem_cons_self ..)))

theorem isReferenceBlock_arguments {p : Procedure} {first : String}
    (hp : p.hasProjection = false) (h : firstRef? p = some first) :
    IsReferenceBlock (members p) first (refCount p) := by
  refine ⟨valueMembers p, argumentReferences p, [], ?_, ?_, ?_, ?_, ?_⟩
  · simp [members, referenceMembers_eq, hp]
  · simp [refCount_eq, hp]
  · rw [firstRef?_eq] at h
    cases hh : (argumentReferences p).head? with
    | none => simp [hh, hp] at h
    | some m => simpa [hh] using h
  · intro m hm
    exact holdsReference_of_mem_argumentReferences hm
  · intro m hm
    rw [List.append_nil] at hm
    exact not_holdsReference_of_mem_valueMembers hm

theorem isReferenceBlock_resultSet {p : Procedure} {first : String}
    (hp : p.hasProjection = true) (ha : argumentReferences p = [])
    (h : firstRef? p = some first) : IsReferenceBlock (members p) first (refCount p) := by
  refine ⟨valueMembers p ++ [resultNumber], [resultReference], [], ?_, ?_, ?_, ?_, ?_⟩
  · simp [members, referenceMembers_eq, hp, ha]
  · simp [refCount_eq, hp, ha]
  · simpa [firstRef?_eq, hp, ha, resultReference] using h
  · intro m hm
    rw [List.mem_singleton.1 hm]
    exact holdsReference_resultReference
  · intro m hm
    rw [List.append_nil, List.mem_append, List.mem_singleton] at hm
    rcases hm with hm | rfl
    · exact not_holdsReference_of_mem_valueMembers hm
    · exact not_holdsReference_resultNumber

/-- The announced block holds the references of the row and nothing else exactly where there
are not both a reference of an argument and a result set. -/
theorem isReferenceBlock_iff {p : Procedure} {first : String} (h : Announces p first) :
    IsReferenceBlock (members p) first (refCount p) ↔
      ¬ (p.hasProjection = true ∧ ∃ a ∈ p.outArgs, a.type.isRef = true) := by
  rw [announces_iff] at h
  rw [exists_isRef_iff]
  constructor
  · rintro hblock ⟨hp, ha⟩
    have hcount : 1 < refCount p := by
      have := List.length_pos_iff.2 ha
      simp only [refCount_eq, hp, if_true]
      omega
    have heq : members p =
        (valueMembers p ++ argumentReferences p) ++ [resultNumber, resultReference] := by
      simp [members, referenceMembers_eq, hp]
    exact not_isReferenceBlock hcount (heq ▸ hblock)
  · intro hne
    cases hp : p.hasProjection with
    | false => exact isReferenceBlock_arguments hp h
    | true =>
      rw [not_and, not_not] at hne
      exact isReferenceBlock_resultSet hp (hne hp) h

/-- A procedure that writes a text back and produces a result set. -/
def labelledQuery : Procedure where
  name := "labelled"
  args := [⟨"label", .text, false, .outOnly, none, false⟩]
  projection := some [⟨"id", .integer, true, none, false⟩]
  attributes := []
  declaredUsesDatabase := some false
  hasOutResult := false

/-- Its macros announce two references from `label` on, of which the second is a number. -/
theorem not_isReferenceBlock_labelledQuery :
    Announces labelledQuery "label" ∧
      ¬ IsReferenceBlock (members labelledQuery) "label" (refCount labelledQuery) := by
  have h : Announces labelledQuery "label" := by decide
  refine ⟨h, fun hblock => (isReferenceBlock_iff h).1 hblock ⟨rfl, ?_⟩⟩
  exact ⟨_, List.mem_singleton.2 rfl, rfl⟩

end CqlGlue.ReturnRow
