import CqlGlue.Proofs.Objc.Classes
import Mathlib.Data.List.Flatten

/-!
# The order of classes in a header

The type of an output can be the class of a result set of another procedure, which a compiler has
to have seen. The header has the classes in the order of the sections of the schema, skips the
procedures that get no wrappers, and declares nothing ahead. So it depends on the schema whether
each class is introduced before its name is used, and it is exactly where no child comes after
its parent.

## Main definitions
* `DeclaresBeforeUse` says that classes of result sets are introduced before they are named.
* `ChildrenFirst` says the same of the procedures.

## Main statements
* `declaresBeforeUse_declared_iff`: the one holds of a header if and only if the other holds of
  the schema.
-/

namespace CqlGlue

/-- The procedure whose result set a value of a type and a kind is. -/
def childOf : CoreType → Option String → Option String
  | .object, kind => kind.bind resultSetOfKind?
  | _, _ => none

namespace ObjcClass

def Promise.type : Promise → String
  | property _ type _ | rowReader type _ => type

/-- The types that an interface names. -/
def Interface.types (i : Interface) : List String :=
  i.promises.map Promise.type ++ (i.ivars.getD []).map Ivar.type

end ObjcClass

namespace ObjcClasses

open ObjcClass

/-! ## Uses of classes -/

/-- A type is a pointer to the objects of a class. -/
def PointsTo (type name : String) : Prop :=
  ∃ notNull, type = name ++ " *" ++ nullability notNull

/-- Classes of result sets are introduced no later than by the interface that names them. -/
def DeclaresBeforeUse (is : List Interface) : Prop :=
  ∀ before i after, is = before ++ i :: after → ∀ type ∈ i.types, ∀ x,
    PointsTo type (resultSetClass x) → ∃ j ∈ before ++ [i], j.name = resultSetClass x

/-- The procedures whose result sets are outputs of a procedure. -/
def children (p : Procedure) : List String :=
  p.columns.filterMap (fun c => childOf c.type c.kind) ++
    p.outArgs.filterMap fun a => childOf a.type a.kind

/-- The children of a procedure that gets wrappers are procedures that get them, stand no later
and have a result set. -/
def ChildrenFirst (s : Schema) : Prop :=
  ∀ front p back, s.wrapped = front ++ p :: back → ∀ x ∈ children p,
    ∃ q ∈ front ++ [p], q.name = x ∧ q.hasProjection = true

/-! ## Types that name a class -/

/-- A type points to the objects of one class. -/
theorem pointsTo_inj {type name name' : String} (h : PointsTo type name)
    (h' : PointsTo type name') : name = name' := by
  obtain ⟨n, rfl⟩ := h
  obtain ⟨n', h'⟩ := h'
  have hmark : n = n' := by
    have hlast := congrArg (fun s => s.toList.getLast?) h'
    cases n <;> cases n' <;> first | rfl | simp [nullability] at hlast
  subst hmark
  simpa [String.append_left_inj] using h'

/-- No value has a type that begins like a class of a result set. -/
theorem not_pointsTo_valueType (t : CoreType) (n : Bool) (x : String) :
    ¬ PointsTo (valueType t n) (resultSetClass x) := by
  rintro ⟨n', h⟩
  have hhead := congrArg (fun s => s.toList.head?) h
  cases t <;> cases n <;> simp [valueType, nullability, resultSetClass] at hhead

theorem pointsTo_kindedType {t : CoreType} {kind : Option String} {n : Bool} {x : String} :
    PointsTo (kindedType t kind n) (resultSetClass x) ↔ childOf t kind = some x := by
  by_cases h : ∃ y, childOf t kind = some y
  · obtain ⟨y, hy⟩ := h
    have htype : PointsTo (kindedType t kind n) (resultSetClass y) := by
      cases t <;> simp only [childOf, reduceCtorEq] at hy
      exact ⟨n, by simp only [kindedType, hy]⟩
    rw [hy, Option.some.injEq]
    constructor
    · exact fun h => resultSetClass_inj.1 (pointsTo_inj htype h)
    · rintro rfl
      exact htype
  · have htype : kindedType t kind n = valueType t n := by
      cases t <;> try rfl
      have hkind : kind.bind resultSetOfKind? = none :=
        Option.eq_none_iff_forall_ne_some.2 fun y hy => h ⟨y, hy⟩
      simp only [kindedType, hkind]
    rw [htype]
    exact ⟨fun h' => absurd h' (not_pointsTo_valueType t n x), fun h' => absurd ⟨x, h'⟩ h⟩

/-- References are no pointers to objects. -/
theorem not_pointsTo_refType (p : Procedure) (x : String) :
    ¬ PointsTo (refType p) (resultSetClass x) := by
  rintro ⟨n, h⟩
  have hlast := congrArg (fun s => s.toList.getLast?) h
  cases n <;> simp [refType, nullability] at hlast

theorem not_pointsTo_of_head {type : String} (h : type.toList.head? ≠ some 'C') (x : String) :
    ¬ PointsTo type (resultSetClass x) := by
  rintro ⟨n, rfl⟩
  exact h (by simp [resultSetClass])

/-! ## The interfaces of a procedure -/

theorem type_columnPromise (p : Procedure) (c : Column) :
    (columnPromise p c).type = columnType c := by
  rw [columnPromise]
  split <;> rfl

theorem mem_types_resultSetInterface {legacy : Bool} {p : Procedure} {type : String} :
    type ∈ (resultSetInterface legacy p).types ↔
      type ∈ p.columns.map columnType ∨ type ∈ [refType p, "cql_bool", "int"] := by
  have hpromises : (resultSetInterface legacy p).promises.map Promise.type =
      p.columns.map columnType ++ [refType p, "cql_bool", "int"] := by
    have hcolumns : (p.columns.map (columnPromise p)).map Promise.type =
        p.columns.map columnType := by
      rw [List.map_map]
      exact List.map_congr_left fun c _ => type_columnPromise p c
    rw [← hcolumns]
    simp [Interface.promises, resultSetInterface, Promise.type]
  have hivars : ((resultSetInterface legacy p).ivars.getD []).map Ivar.type ⊆ [refType p] := by
    cases legacy <;> simp [resultSetInterface, resultSetIvars]
  rw [Interface.types, hpromises, List.mem_append, List.mem_append]
  exact or_iff_left_of_imp fun h => .inr (by simp [List.mem_singleton.1 (hivars h)])

/-- The interface of a result set names the classes of the columns. -/
theorem exists_type_resultSetInterface {legacy : Bool} {p : Procedure} {x : String} :
    (∃ type ∈ (resultSetInterface legacy p).types, PointsTo type (resultSetClass x)) ↔
      x ∈ p.columns.filterMap fun c => childOf c.type c.kind := by
  have hfixed : ∀ type ∈ [refType p, "cql_bool", "int"], ¬ PointsTo type (resultSetClass x) := by
    simp only [List.forall_mem_cons]
    exact ⟨not_pointsTo_refType p x, not_pointsTo_of_head (by decide) x,
      not_pointsTo_of_head (by decide) x, by simp⟩
  simp only [mem_types_resultSetInterface, List.mem_filterMap]
  constructor
  · rintro ⟨type, htype | htype, hpoints⟩
    · obtain ⟨c, hc, rfl⟩ := List.mem_map.1 htype
      exact ⟨c, hc, pointsTo_kindedType.1 hpoints⟩
    · exact absurd hpoints (hfixed type htype)
  · rintro ⟨c, hc, hchild⟩
    exact ⟨columnType c, .inl (List.mem_map_of_mem hc), pointsTo_kindedType.2 hchild⟩

theorem mem_types_returnInterface {legacy : Bool} {p : Procedure} {type : String} :
    type ∈ (returnInterface legacy p).types ↔
      type ∈ p.outArgs.map outputType ∨ p.usesDatabase = true ∧ type = "int" ∨
        p.hasProjection = true ∧ type = resultSetClass p.name ++ " *_Nullable" := by
  have hpromises : (returnInterface legacy p).promises.map Promise.type =
      (returnFields p).map Prod.fst := by
    rw [promises_returnInterface, returnFields]
    simp only [List.map_append, List.map_map]
    cases p.usesDatabase <;> cases p.hasProjection <;> rfl
  have hivars : ((returnInterface legacy p).ivars.getD []).map Ivar.type ⊆
      (returnFields p).map Prod.fst := by
    cases legacy with
    | false => exact List.nil_subset _
    | true =>
      have hmap : (returnIvars p).map Ivar.type = (returnFields p).map Prod.fst := by
        rw [returnIvars_eq, List.map_map]
        rfl
      exact hmap ▸ List.Subset.refl _
  rw [Interface.types, hpromises, List.mem_append, or_iff_left_of_imp fun h => hivars h,
    returnFields, List.map_append, List.map_append, List.map_map, List.mem_append, List.mem_append]
  cases p.usesDatabase <;> cases p.hasProjection <;> simp [or_assoc]

/-- The interface of what a call gives back names the classes of the arguments and the class of
the own result set. -/
theorem exists_type_returnInterface {legacy : Bool} {p : Procedure} {x : String} :
    (∃ type ∈ (returnInterface legacy p).types, PointsTo type (resultSetClass x)) ↔
      (x ∈ p.outArgs.filterMap fun a => childOf a.type a.kind) ∨
        p.hasProjection = true ∧ p.name = x := by
  have hown : PointsTo (resultSetClass p.name ++ " *_Nullable") (resultSetClass p.name) :=
    ⟨false, by rw [String.append_assoc]; rfl⟩
  simp only [mem_types_returnInterface, List.mem_filterMap]
  constructor
  · rintro ⟨type, htype | ⟨-, rfl⟩ | ⟨hp, rfl⟩, hpoints⟩
    · obtain ⟨a, ha, rfl⟩ := List.mem_map.1 htype
      exact .inl ⟨a, ha, pointsTo_kindedType.1 hpoints⟩
    · exact absurd hpoints (not_pointsTo_of_head (by decide) x)
    · exact .inr ⟨hp, resultSetClass_inj.1 (pointsTo_inj hown hpoints)⟩
  · rintro (⟨a, ha, hchild⟩ | ⟨hp, rfl⟩)
    · exact ⟨outputType a, .inl (List.mem_map_of_mem ha), pointsTo_kindedType.2 hchild⟩
    · exact ⟨_, .inr (.inr ⟨hp, rfl⟩), hown⟩

/-- The interfaces of a procedure name the classes of its children and its own. -/
theorem children_of_mem_interfaces {legacy : Bool} {p : Procedure} {i : Interface}
    (hi : i ∈ interfaces legacy p) {type x : String} (htype : type ∈ i.types)
    (hpoints : PointsTo type (resultSetClass x)) :
    x ∈ children p ∨ p.hasProjection = true ∧ p.name = x := by
  rw [children, List.mem_append]
  obtain ⟨-, rfl⟩ | ⟨-, rfl⟩ := mem_interfaces.1 hi
  · exact .inl (.inl (exists_type_resultSetInterface.1 ⟨type, htype, hpoints⟩))
  · obtain h | h := exists_type_returnInterface.1 ⟨type, htype, hpoints⟩
    · exact .inl (.inr h)
    · exact .inr h

/-- Each child of a procedure is named by one of its interfaces. -/
theorem exists_interface_of_children (legacy : Bool) {p : Procedure} {x : String}
    (hx : x ∈ children p) :
    ∃ i ∈ interfaces legacy p, ∃ type ∈ i.types, PointsTo type (resultSetClass x) := by
  rw [children, List.mem_append] at hx
  rcases hx with hx | hx
  · refine ⟨_, mem_interfaces.2 (.inl ⟨?_, rfl⟩), exists_type_resultSetInterface.2 hx⟩
    obtain ⟨c, hc, -⟩ := List.mem_filterMap.1 hx
    cases hp : p.projection <;> simp_all [Procedure.columns, Procedure.hasProjection]
  · refine ⟨_, mem_interfaces.2 (.inr ⟨?_, rfl⟩), exists_type_returnInterface.2 (.inl hx)⟩
    obtain ⟨a, ha, -⟩ := List.mem_filterMap.1 hx
    simp [hasReturn, Procedure.hasOutArgs, List.ne_nil_of_mem ha]

/-- The class of a result set comes first among the classes of its procedure. -/
theorem resultSetInterface_mem {legacy : Bool} {p : Procedure} {i : Interface}
    {front back : List Interface} (hp : p.hasProjection = true)
    (h : interfaces legacy p = front ++ i :: back) :
    resultSetInterface legacy p ∈ front ++ [i] := by
  rw [interfaces, if_pos hp] at h
  cases front with
  | nil => exact List.mem_singleton.2 (List.cons.inj h).1
  | cons j front => exact (List.cons.inj h).1 ▸ List.mem_cons_self

theorem exists_name_mem_interfaces {legacy : Bool} {p : Procedure} {x : String} :
    (∃ j ∈ interfaces legacy p, j.name = resultSetClass x) ↔
      p.hasProjection = true ∧ p.name = x := by
  simp only [mem_interfaces]
  constructor
  · rintro ⟨j, ⟨hp, rfl⟩ | ⟨-, rfl⟩, hname⟩
    · exact ⟨hp, resultSetClass_inj.1 hname⟩
    · exact absurd hname.symm (resultSetClass_ne_returnClass x p)
  · rintro ⟨hp, rfl⟩
    exact ⟨_, .inl ⟨hp, rfl⟩, rfl⟩

/-! ## Headers -/

/-- An element of what the elements of a list give comes from one place of the list. -/
theorem exists_of_flatMap_eq {α β : Type} {f : α → List β} {xs : List α} {before after : List β}
    {y : β} (h : xs.flatMap f = before ++ y :: after) :
    ∃ (front : List α) (x : α) (back : List α) (pre post : List β),
      xs = front ++ x :: back ∧ f x = pre ++ y :: post ∧ before = front.flatMap f ++ pre := by
  induction xs generalizing before with
  | nil => simp at h
  | cons x xs ih =>
    rw [List.flatMap_cons, List.append_eq_append_iff] at h
    obtain ⟨rest, rfl, h⟩ | ⟨rest, hx, h⟩ := h
    · obtain ⟨front, x', back, pre, post, rfl, hx', rfl⟩ := ih h
      exact ⟨x :: front, x', back, pre, post, rfl, hx', by simp⟩
    · cases rest with
      | nil =>
        obtain ⟨front, x', back, pre, post, rfl, hx', hpre⟩ := @ih [] h.symm
        refine ⟨x :: front, x', back, pre, post, rfl, hx', ?_⟩
        rw [List.flatMap_cons, List.append_assoc, ← hpre, hx, List.append_nil, List.append_nil]
      | cons z rest =>
        obtain ⟨rfl, -⟩ := List.cons.inj h
        exact ⟨[], x, xs, before, rest, rfl, hx, rfl⟩

/-- Classes of result sets are introduced before they are named exactly where children come
first. -/
theorem declaresBeforeUse_declared_iff (legacy : Bool) (s : Schema) :
    DeclaresBeforeUse (declared legacy s) ↔ ChildrenFirst s := by
  constructor
  · intro h front p back hs x hx
    obtain ⟨i, hi, type, htype, hpoints⟩ := exists_interface_of_children legacy hx
    obtain ⟨pre, post, hsplit⟩ := List.append_of_mem hi
    have hdeclared : declared legacy s = front.flatMap (interfaces legacy) ++ pre ++
        i :: (post ++ back.flatMap (interfaces legacy)) := by
      simp [declared, hs, hsplit]
    obtain ⟨j, hj, hname⟩ := h _ i _ hdeclared type htype x hpoints
    have hmem : j ∈ (front ++ [p]).flatMap (interfaces legacy) := by
      simp only [List.flatMap_append, List.flatMap_cons, List.flatMap_nil, hsplit,
        List.mem_append, List.mem_cons, List.not_mem_nil, or_false] at hj ⊢
      tauto
    obtain ⟨q, hq, hjq⟩ := List.mem_flatMap.1 hmem
    obtain ⟨hproj, hqname⟩ := exists_name_mem_interfaces.1 ⟨j, hjq, hname⟩
    exact ⟨q, hq, hqname, hproj⟩
  · intro h before i after hdeclared type htype x hpoints
    obtain ⟨front, p, back, pre, post, hs, hsplit, rfl⟩ := exists_of_flatMap_eq hdeclared
    have hchild : ∃ q ∈ front ++ [p], q.name = x ∧ q.hasProjection = true := by
      obtain hx | ⟨hp, hname⟩ :=
        children_of_mem_interfaces (hsplit ▸ List.mem_append_cons_self) htype hpoints
      · exact h front p back hs x hx
      · exact ⟨p, by simp, hname, hp⟩
    obtain ⟨q, hq, rfl, hproj⟩ := hchild
    refine ⟨resultSetInterface legacy q, ?_, rfl⟩
    rcases List.mem_append.1 hq with hq | hq
    · have hmem : resultSetInterface legacy q ∈ front.flatMap (interfaces legacy) :=
        List.mem_flatMap.2 ⟨q, hq, mem_interfaces.2 (.inl ⟨hproj, rfl⟩)⟩
      simp [hmem]
    · rw [List.mem_singleton.1 hq] at hproj ⊢
      rw [List.append_assoc]
      exact List.mem_append_right _ (resultSetInterface_mem hproj hsplit)

/-- In either mode the header has the interfaces in the order of the schema, each with its name and
its types, and introduces the classes of result sets before it names them exactly where children
come first. -/
theorem headerText_declaresBeforeUse_iff (legacy : Bool) (header : String) (s : Schema) :
    Text.InOrder ((declared legacy s).map Interface.written) (headerText ⟨header, legacy⟩ s) ∧
      (DeclaresBeforeUse (declared legacy s) ↔ ChildrenFirst s) := by
  refine ⟨(inOrder_headerText legacy header s).sublist ?_, declaresBeforeUse_declared_iff legacy s⟩
  rw [declared, List.map_flatMap]
  exact List.Sublist.flatMap_right _ fun p _ => List.sublist_append_left _ _

/-- Every kind of an object that is a result set names a procedure of the schema with one. -/
def KindsAreKnown (s : Schema) : Prop :=
  ∀ p ∈ s.procedures,
    ∀ x ∈ p.args.filterMap (fun a => childOf a.type a.kind) ++
        p.columns.filterMap (fun c => childOf c.type c.kind),
      ∃ q ∈ s.procedures, q.name = x ∧ q.hasProjection = true

/-- A procedure that gives back the result set of another. -/
def parent : Procedure :=
  ⟨"parent", [⟨"result", .object, false, .outOnly, some "child SET", false⟩], none, [], some false,
    false⟩

/-- The other procedure. -/
def child (attributes : List Attribute) : Procedure :=
  ⟨"child", [], some [⟨"id", .integer, true, none, false⟩], attributes, some true, false⟩

/-- A schema whose child comes after its parent. -/
def lateChild : Schema := ⟨[], [], [], [], [], [parent, child []]⟩

/-- A schema whose child is private. -/
def privateChild : Schema := ⟨[child [⟨"cql:private", .bool true⟩]], [], [], [], [], [parent]⟩

theorem not_declaresBeforeUse_children :
    (KindsAreKnown lateChild ∧ ¬ DeclaresBeforeUse (declared false lateChild)) ∧
      KindsAreKnown privateChild ∧ ¬ DeclaresBeforeUse (declared false privateChild) := by
  have hkinds : parent.args.filterMap (fun a => childOf a.type a.kind) ++
      parent.columns.filterMap (fun c => childOf c.type c.kind) = ["child"] := by decide
  have hnone : ∀ attributes, (child attributes).args.filterMap (fun a => childOf a.type a.kind) ++
      (child attributes).columns.filterMap (fun c => childOf c.type c.kind) = [] := fun _ => rfl
  -- the interface of what the parent gives back comes first and names the class of the child
  have hfirst : ∀ rest, ¬ DeclaresBeforeUse (returnInterface false parent :: rest) := by
    intro rest h
    have hnamed : PointsTo "CGSchildRS *_Nullable" (resultSetClass "child") :=
      ⟨false, by decide⟩
    obtain ⟨j, hj, hname⟩ := h [] _ rest rfl _ (by decide) "child" hnamed
    obtain rfl := List.mem_singleton.1 hj
    exact resultSetClass_ne_returnClass "child" parent hname.symm
  refine ⟨⟨?_, hfirst _⟩, ?_, hfirst _⟩
  · simp only [KindsAreKnown, lateChild, Schema.procedures, List.nil_append, List.forall_mem_cons,
      hkinds, hnone]
    simp [child, Procedure.hasProjection]
  · simp only [KindsAreKnown, privateChild, Schema.procedures, List.append_nil, List.cons_append,
      List.nil_append, List.forall_mem_cons, hkinds, hnone]
    simp [child, Procedure.hasProjection]

end ObjcClasses

end CqlGlue
