import CqlGlue.Bindings.CSharpManaged
import CqlGlue.Bindings.JavaManaged
import CqlGlue.Proofs.Bindings.Names
import Mathlib.Data.List.Enum
import Mathlib.Data.List.Nodup

/-!
# Members of managed classes

The members of a managed class are named after columns and arguments, and some besides are named
by the generator, depending on the shape of the procedure. Readers of columns never meet another
method of their class. Readers of arguments share their names with nothing else exactly where no
argument given back is called like one of the generator's own members.

## Main definitions
* `ManagedClass.memberNames` are the names of the members of a class.
* `ManagedClass.signatures` are its methods, as calls tell them apart.
* `ownNames`, one for each language, are the names that arguments given back have to avoid.

## Main statements
* `declaresMembersOnce_iff` says of each class when it declares its members once.
-/

namespace CqlGlue

/-- What calls tell a method by: its name and the types of its parameters. -/
abbrev Signature := String × List String

/-- The method that a member is, if it is one. -/
def ManagedMember.signature? (m : ManagedMember) : Option Signature :=
  match m.form with
  | .method params => some (m.name, params.map (·.type))
  | .property _ => none

namespace ManagedClass

/-- The names of the members of a class. -/
def memberNames (c : ManagedClass) : List String := c.members.map (·.name)

/-- The methods of a class. -/
def signatures (c : ManagedClass) : List Signature := c.members.filterMap (·.signature?)

end ManagedClass

/-- The reader of what is called by a name. -/
def reader (types : List String) (name : String) : Signature := ("get_" ++ name, types)

theorem reader_injective (types : List String) : Function.Injective (reader types) :=
  fun _ _ h => (String.append_right_inj _).1 (Prod.mk.inj h).1

/-- Readers with and without a row differ, whatever they are called. -/
theorem reader_row_ne {x y : String} : reader ["int"] x ≠ reader [] y :=
  fun h => List.cons_ne_nil _ _ (congrArg Prod.snd h)

/-- A method whose name does not begin like that of a reader is none. -/
theorem reader_ne {s : Signature} (h : ¬ "get_".toList <+: s.1.toList) (types : List String)
    (name : String) : reader types name ≠ s := by
  rintro rfl
  refine h ?_
  rw [reader, String.toList_append]
  exact List.prefix_append ..

/-- What is read of the elements of a list does not depend on their places. -/
theorem map_fst_zipIdx {α β : Type} (f : α → β) (xs : List α) :
    (xs.zipIdx.map fun x => f x.1) = xs.map f := by
  conv_rhs => rw [← List.zipIdx_map_fst 0 xs]
  rw [List.map_map]
  rfl

theorem Procedure.nodup_outArgs {p : Procedure} (hargs : (p.args.map (·.name)).Nodup) :
    (p.outArgs.map (·.name)).Nodup := List.Sublist.nodup (List.filter_sublist.map _) hargs

variable {p : Procedure} {c : ManagedClass}

/-! ## C# -/

namespace CSharpManaged

/-- The names of the members of a return row besides those of arguments. -/
def ownNames (p : Procedure) : List String :=
  (if p.usesDatabase then ["result_code"] else []) ++
  (if p.hasProjection then ["result_set"] else []) ++ ["Count", "hasIdentityColumns"]

theorem nodup_ownNames (p : Procedure) : (ownNames p).Nodup := by
  rw [ownNames]
  cases p.usesDatabase <;> cases p.hasProjection <;> decide

theorem memberNames_returnType (p : Procedure) :
    (returnType p).memberNames = p.outArgs.map (·.name) ++ ownNames p := by
  rw [← map_fst_zipIdx, ManagedClass.memberNames, returnType, outputMembers, ownNames]
  simp only [List.map_append, List.map_map, List.append_assoc]
  cases p.usesDatabase <;> cases p.hasProjection <;> rfl

/-- The view of a return row declares each member once exactly where no argument given back is
called like one of the others. -/
theorem nodup_memberNames_iff (hargs : (p.args.map (·.name)).Nodup) :
    (returnType p).memberNames.Nodup ↔ ∀ a ∈ p.outArgs, a.name ∉ ownNames p := by
  rw [memberNames_returnType, Table.nodup_map_append_iff (nodup_ownNames p)]
  exact and_iff_right (Procedure.nodup_outArgs hargs)

/-- The class of a return row has the name of a member exactly where an argument given back is
called so. -/
theorem returnTypeName_not_mem_iff :
    returnTypeName p ∉ (returnType p).memberNames ↔ ∀ a ∈ p.outArgs, a.name ≠ returnTypeName p := by
  have hown : returnTypeName p ∉ ownNames p := by
    have hfixed : ∀ x ∈ ["result_code", "result_set", "Count", "hasIdentityColumns"],
        ¬ "ReturnType".toList <:+ x.toList := by decide
    have hsubset : ownNames p ⊆ ["result_code", "result_set", "Count", "hasIdentityColumns"] := by
      rw [ownNames]
      cases p.usesDatabase <;> cases p.hasProjection <;> decide
    exact fun hmem => hfixed _ (hsubset hmem) (suffix_append p.name "ReturnType")
  rw [memberNames_returnType, List.mem_append, not_or, List.mem_map, not_exists]
  simp only [not_and]
  exact and_iff_left hown

/-- The parameters of a reader of a column. A result set of a single row is read without a row. -/
def rowTypes (p : Procedure) : List String := if p.hasOutResult then [] else ["int"]

theorem signature?_columnMember (p : Procedure) (c : Column) (index : Nat) :
    (columnMember p c index).signature? = some (reader (rowTypes p) c.name) := by
  rw [columnMember, rowTypes]
  cases p.hasOutResult <;> rfl

theorem signatures_viewModel (h : viewModel? p = some c) :
    c.signatures =
      (p.columns.map (·.name)).map (reader (rowTypes p)) ++ [("hasIdentityColumns", [])] := by
  have hcolumns : (p.columns.zipIdx.map fun c => columnMember p c.1 c.2).filterMap
      (·.signature?) = (p.columns.map (·.name)).map (reader (rowTypes p)) := by
    simp only [List.filterMap_map, Function.comp_def, signature?_columnMember,
      List.filterMap_eq_map', List.map_map]
    exact map_fst_zipIdx (fun c : Column => reader (rowTypes p) c.name) p.columns
  rw [viewModel?] at h
  split at h
  · cases h
    rw [ManagedClass.signatures, List.filterMap_append, hcolumns]
    rfl
  · cases h

/-- The methods of the view of a result set differ. -/
theorem nodup_signatures_viewModel (hcolumns : (p.columns.map (·.name)).Nodup)
    (h : viewModel? p = some c) : c.signatures.Nodup := by
  rw [signatures_viewModel h, Table.nodup_map_append_iff (List.nodup_singleton _)]
  refine ⟨hcolumns.map (reader_injective _), fun x _ hx => ?_⟩
  exact reader_ne (by decide) _ _ (List.mem_singleton.1 hx)

end CSharpManaged

/-! ## Java -/

namespace JavaManaged

/-- The names that readers in the view of a return row are made of besides those of arguments. -/
def ownNames (p : Procedure) : List String :=
  (if p.usesDatabase then ["result_code"] else []) ++
  (if p.hasProjection then ["result_set"] else [])

theorem nodup_ownNames (p : Procedure) : (ownNames p).Nodup := by
  rw [ownNames]
  cases p.usesDatabase <;> cases p.hasProjection <;> decide

/-- The methods of every view that are no readers. -/
def fixedMethods : List Signature := [("getCount", []), ("hasIdentityColumns", [])]

theorem signatures_results (p : Procedure) :
    (results p).signatures =
      (p.outArgs.map (·.name) ++ ownNames p).map (reader []) ++ fixedMethods := by
  have harguments : (p.outArgs.zipIdx.map fun a => ManagedMember.method
      (cellType a.1.type a.1.isNotNull) ("get_" ++ a.1.name) []
      (.cell (a.1.type.accessor a.1.isNotNull) "0" a.2)).filterMap (·.signature?) =
      (p.outArgs.map (·.name)).map (reader []) := by
    rw [List.filterMap_map, List.map_map, ← map_fst_zipIdx, ← List.filterMap_eq_map]
    rfl
  have hcode : reader [] "result_code" = ("get_result_code", []) := by decide
  have hset : reader [] "result_set" = ("get_result_set", []) := by decide
  rw [ManagedClass.signatures, results, outputMembers, ownNames]
  simp only [List.filterMap_append, List.map_append, harguments, List.append_assoc]
  cases p.usesDatabase <;> cases p.hasProjection <;> simp [hcode, hset] <;> rfl

/-- The methods of the view of a return row differ exactly where no argument given back is called
like the result code or the result set that the row has beside it. -/
theorem nodup_signatures_iff (hargs : (p.args.map (·.name)).Nodup) :
    (results p).signatures.Nodup ↔ ∀ a ∈ p.outArgs, a.name ∉ ownNames p := by
  have hfixed : ∀ s ∈ fixedMethods, ¬ "get_".toList <+: s.1.toList := by decide
  rw [signatures_results, Table.nodup_map_append_iff (by decide),
    List.nodup_map_iff (reader_injective _), Table.nodup_map_append_iff (nodup_ownNames p)]
  constructor
  · rintro ⟨⟨-, hown⟩, -⟩
    exact hown
  · intro hown
    refine ⟨⟨Procedure.nodup_outArgs hargs, hown⟩, fun x _ hx => ?_⟩
    exact reader_ne (hfixed _ hx) _ _ rfl

/-- The methods that read a column. -/
def columnMethods (p : Procedure) (c : Column) : List Signature :=
  reader ["int"] c.name :: if p.isVaulted c then [reader [] (c.name ++ "_IsEncoded")] else []

theorem signatures_columnMembers (p : Procedure) (c : Column) (index : Nat) :
    (columnMembers p c index).filterMap (·.signature?) = columnMethods p c := by
  rw [columnMembers, columnMethods]
  cases p.isVaulted c with
  | false => rfl
  | true =>
    rw [reader, reader, ← String.append_assoc]
    rfl

theorem signatures_viewModel (h : viewModel? p = some c) :
    c.signatures = p.columns.flatMap (columnMethods p) ++
      [("hasIdentityColumns", []), ("getCount", [])] := by
  have hcolumns : (p.columns.zipIdx.flatMap fun c => columnMembers p c.1 c.2).filterMap
      (·.signature?) = p.columns.flatMap (columnMethods p) := by
    rw [List.filterMap_flatMap]
    simp only [signatures_columnMembers, List.flatMap_def]
    rw [map_fst_zipIdx]
  rw [viewModel?] at h
  split at h
  · cases h
    rw [ManagedClass.signatures, List.filterMap_append, hcolumns]
    rfl
  · cases h

/-- Columns of different names share no method: where the parameters are the same, so is what
follows the name. -/
theorem name_eq_of_mem_columnMethods {a b : Column} {s : Signature}
    (ha : s ∈ columnMethods p a) (hb : s ∈ columnMethods p b) : a.name = b.name := by
  have hcases : ∀ {c : Column}, s ∈ columnMethods p c →
      s = reader ["int"] c.name ∨ s = reader [] (c.name ++ "_IsEncoded") := by
    intro c hc
    rw [columnMethods] at hc
    split at hc
    · simpa using hc
    · exact .inl (List.mem_singleton.1 hc)
  rcases hcases ha with rfl | rfl <;> rcases hcases hb with heq | heq
  · exact reader_injective _ heq
  · exact absurd heq reader_row_ne
  · exact absurd heq.symm reader_row_ne
  · exact (String.append_left_inj _).1 (reader_injective _ heq)

theorem nodup_columnMethods (p : Procedure) (c : Column) : (columnMethods p c).Nodup := by
  rw [columnMethods]
  split
  · refine List.nodup_cons.2 ⟨fun hmem => ?_, List.nodup_singleton _⟩
    exact reader_row_ne (List.mem_singleton.1 hmem)
  · exact List.nodup_singleton _

theorem exists_reader_of_mem_columnMethods {c : Column} {s : Signature}
    (h : s ∈ columnMethods p c) : ∃ types name, s = reader types name := by
  rw [columnMethods] at h
  split at h
  · rcases List.mem_pair.1 h with rfl | rfl <;> exact ⟨_, _, rfl⟩
  · exact ⟨_, _, List.mem_singleton.1 h⟩

/-- The methods of the view of a result set differ. -/
theorem nodup_signatures_viewModel (hcolumns : (p.columns.map (·.name)).Nodup)
    (h : viewModel? p = some c) : c.signatures.Nodup := by
  rw [signatures_viewModel h, List.nodup_append']
  refine ⟨?_, by decide, fun s hs hfixed => ?_⟩
  · rw [List.nodup_flatMap]
    refine ⟨fun c _ => nodup_columnMethods p c, (List.pairwise_map.1 hcolumns).imp ?_⟩
    exact fun hne s ha hb => hne (name_eq_of_mem_columnMethods ha hb)
  · have hplain : ∀ s ∈ [(("hasIdentityColumns", []) : Signature), ("getCount", [])],
        ¬ "get_".toList <+: s.1.toList := by decide
    obtain ⟨c, -, hc⟩ := List.mem_flatMap.1 hs
    obtain ⟨types, name, rfl⟩ := exists_reader_of_mem_columnMethods hc
    exact reader_ne (hplain _ hfixed) types name rfl

end JavaManaged

/-! ## All classes -/

/-- Where arguments have distinct names and columns have, the views of a result set never declare a
method twice, and those of a return row declare no member twice exactly where no argument given
back is called like a member that the row has besides. In C# a member must not be called like its
class either. -/
theorem declaresMembersOnce_iff {p : Procedure} (hargs : (p.args.map (·.name)).Nodup)
    (hcolumns : (p.columns.map (·.name)).Nodup) :
    ((CSharpManaged.returnType p).memberNames.Nodup ↔
        ∀ a ∈ p.outArgs, a.name ∉ CSharpManaged.ownNames p) ∧
      (CSharpManaged.returnTypeName p ∉ (CSharpManaged.returnType p).memberNames ↔
        ∀ a ∈ p.outArgs, a.name ≠ CSharpManaged.returnTypeName p) ∧
      (∀ c, CSharpManaged.viewModel? p = some c → c.signatures.Nodup) ∧
      (∀ c, JavaManaged.viewModel? p = some c → c.signatures.Nodup) ∧
      ((JavaManaged.results p).signatures.Nodup ↔
        ∀ a ∈ p.outArgs, a.name ∉ JavaManaged.ownNames p) :=
  ⟨CSharpManaged.nodup_memberNames_iff hargs, CSharpManaged.returnTypeName_not_mem_iff,
    fun _ => CSharpManaged.nodup_signatures_viewModel hcolumns,
    fun _ => JavaManaged.nodup_signatures_viewModel hcolumns,
    JavaManaged.nodup_signatures_iff hargs⟩

/-- A procedure that takes in an argument called like the result code, with an encoded column and
one that is called like the flag of it. -/
def reviewed : Procedure where
  name := "reviewed"
  args := [⟨"author", .text, false, .inOut, none, false⟩,
    ⟨"score", .real, true, .outOnly, none, false⟩,
    ⟨"result_code", .integer, true, .inOnly, none, false⟩]
  projection := some [⟨"note", .text, false, none, true⟩,
    ⟨"note_IsEncoded", .bool, true, none, true⟩]
  attributes := [⟨"cql:vault_sensitive", .bool true⟩]
  declaredUsesDatabase := none
  hasOutResult := false

theorem declaresMembersOnce_reviewed :
    (reviewed.args.map (·.name)).Nodup ∧ (reviewed.columns.map (·.name)).Nodup ∧
      (CSharpManaged.returnType reviewed).memberNames.Nodup ∧
      CSharpManaged.returnTypeName reviewed ∉ (CSharpManaged.returnType reviewed).memberNames ∧
      (∃ c, CSharpManaged.viewModel? reviewed = some c ∧ c.signatures.Nodup) ∧
      (∃ c, JavaManaged.viewModel? reviewed = some c ∧ c.signatures.Nodup) ∧
      (JavaManaged.results reviewed).signatures.Nodup := by
  have hargs : (reviewed.args.map (·.name)).Nodup := by decide
  have hcolumns : (reviewed.columns.map (·.name)).Nodup := by decide
  obtain ⟨hmembers, hclass, hcsharp, hjava, hresults⟩ := declaresMembersOnce_iff hargs hcolumns
  exact ⟨hargs, hcolumns, hmembers.2 (by decide), hclass.2 (by decide), ⟨_, rfl, hcsharp _ rfl⟩,
    ⟨_, rfl, hjava _ rfl⟩, hresults.2 (by decide)⟩

/-- A procedure with arguments given back that are called like the members beside them. -/
def surveyed : Procedure where
  name := "surveyed"
  args := [⟨"result_code", .integer, true, .outOnly, none, false⟩,
    ⟨"Count", .integer, true, .outOnly, none, false⟩]
  projection := none
  attributes := []
  declaredUsesDatabase := some true
  hasOutResult := false

theorem not_nodup_members_surveyed :
    (surveyed.args.map (·.name)).Nodup ∧ (surveyed.columns.map (·.name)).Nodup ∧
      (∀ a ∈ surveyed.args, isIdentifier a.name) ∧
      ¬ (CSharpManaged.returnType surveyed).memberNames.Nodup ∧
      ¬ (JavaManaged.results surveyed).signatures.Nodup := by
  refine ⟨by decide, by decide, by decide, by decide, by decide⟩

end CqlGlue
