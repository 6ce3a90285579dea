import CqlGlue.Proofs.Objc.Written
import CqlGlue.Proofs.Table
import Mathlib.Data.List.Nodup
import Mathlib.Data.List.Perm.Basic

/-!
# Classes declared and classes implemented

The header declares classes, the implementation file implements them, and the two are put
together apart from each other, each with conditions of its own on result sets, outputs and
databases. Still they describe the same classes: what an interface promises is provided once by
the implementation of that name, and no property is synthesized that is not promised. The files
hold these classes word for word, and the heads of the same functions.

## Main definitions
* `Provides` says that an implementation provides what an interface promises.
* `declared` and `defined` are the classes of the two files.
* `SameClasses` is what the two files have to agree on.

## Main statements
* `sameClasses` holds of every schema whose names are distinct and not taken by the generator.
-/

namespace CqlGlue

namespace ObjcClass

/-- What a caller of a reader depends on. -/
structure Signature where
  type : String
  name : String
  /-- Whether a row is asked for. -/
  takesRow : Bool
  deriving DecidableEq

/-- A property is read without arguments. -/
def Promise.signature : Promise → Signature
  | property _ type name => ⟨type, name, false⟩
  | rowReader type name => ⟨type, name, true⟩

def Method.signature (m : Method) : Signature := ⟨m.type, m.name, m.takesRow⟩

/-- All promises of an interface. -/
def Interface.promises (i : Interface) : List Promise := i.groups.flatten

/-- The readers of synthesized properties. A property reads the instance variable behind it,
where there is one, and has its type. -/
def Implementation.stored (m : Implementation) : List Signature :=
  m.synthesized.flatMap fun x =>
    (m.ivars.filter (·.name == x.2)).map fun v => ⟨v.type, x.1, false⟩

/-- All readers of a class. -/
def Implementation.provided (m : Implementation) : List Signature :=
  m.methods.map Method.signature ++ m.stored

/-- The method by which objects are freed, which no interface promises. -/
def freeing : Signature := ⟨"void", "dealloc", false⟩

/-- An implementation provides what an interface promises. -/
structure Provides (i : Interface) (m : Implementation) : Prop where
  /-- Each promise is kept by one reader. -/
  once : ∀ r ∈ i.promises, m.provided.count r.signature = 1
  /-- No other reader has the name of a promise. -/
  alone : ∀ r ∈ i.promises, ∀ q ∈ m.provided, q.name = r.signature.name →
    q = r.signature ∨ q = freeing
  /-- What is synthesized is a promised property, and one variable of its type is behind it. -/
  synthesized : ∀ x ∈ m.synthesized, ∃ rule type, .property rule type x.1 ∈ i.promises ∧
    m.ivars.filter (·.name == x.2) = [⟨type, x.2⟩]

/-- The instance variable behind a property. -/
def Ivar.behind (field : String × String) : Ivar := ⟨field.1, "_" ++ field.2⟩

/-- An implementation keeps properties, given as types and names, in variables of their own. -/
structure Implementation.Keeps (m : Implementation) (fields : List (String × String)) : Prop where
  nodup : (fields.map Prod.snd).Nodup
  ivars : m.ivars = fields.map Ivar.behind
  synthesized : m.synthesized = fields.map fun f => (f.2, "_" ++ f.2)

namespace Implementation.Keeps

variable {m : Implementation} {fields : List (String × String)}

theorem filter_ivars (h : m.Keeps fields) {f : String × String} (hf : f ∈ fields) :
    m.ivars.filter (·.name == "_" ++ f.2) = [Ivar.behind f] := by
  have hnames : (m.ivars.map Ivar.name).Nodup := by
    have hmap : m.ivars.map Ivar.name = (fields.map Prod.snd).map ("_" ++ ·) := by
      rw [h.ivars, List.map_map, List.map_map]
      rfl
    rw [hmap]
    exact h.nodup.map fun _ _ => (String.append_right_inj "_").1
  have hmem : Ivar.behind f ∈ m.ivars := h.ivars ▸ List.mem_map_of_mem hf
  exact Table.filter_key_eq_singleton hnames hmem

theorem stored_eq (h : m.Keeps fields) :
    m.stored = fields.map fun f => ⟨f.1, f.2, false⟩ := by
  rw [stored, h.synthesized, List.flatMap_map, List.map_eq_flatMap]
  apply List.flatMap_congr
  intro f hf
  rw [h.filter_ivars hf]
  rfl

/-- An interface with distinct names is provided by an implementation that keeps some of the
promised properties, whose methods read the others, and that has no method beside them but one to
free an object. -/
theorem provides (h : m.Keeps fields) {i : Interface} (beside : List Signature)
    (hnodup : (i.promises.map fun r => r.signature.name).Nodup)
    (hkept : ∀ f ∈ fields, ∃ rule, .property rule f.1 f.2 ∈ i.promises)
    (hfree : ∀ r ∈ i.promises, r.signature ≠ freeing) (hbeside : beside ⊆ [freeing])
    (hperm : m.provided.Perm (i.promises.map Promise.signature ++ beside)) : Provides i m where
  once r hr := by
    have hsignatures : (i.promises.map Promise.signature).Nodup := by
      apply List.Nodup.of_map Signature.name
      rwa [List.map_map]
    have hnot : r.signature ∉ beside := fun h => hfree r hr (List.mem_singleton.1 (hbeside h))
    rw [hperm.count_eq, List.count_append, List.count_eq_zero_of_not_mem hnot,
      List.count_eq_one_of_mem hsignatures (List.mem_map_of_mem hr)]
  alone r hr q hq hname := by
    rw [hperm.mem_iff, List.mem_append] at hq
    obtain hq | hq := hq
    · obtain ⟨r', hr', rfl⟩ := List.mem_map.1 hq
      rw [List.inj_on_of_nodup_map hnodup hr' hr hname]
      exact .inl rfl
    · exact .inr (List.mem_singleton.1 (hbeside hq))
  synthesized x hx := by
    rw [h.synthesized] at hx
    obtain ⟨f, hf, rfl⟩ := List.mem_map.1 hx
    obtain ⟨rule, hrule⟩ := hkept f hf
    exact ⟨rule, f.1, hrule, h.filter_ivars hf⟩

end Implementation.Keeps

end ObjcClass

namespace ObjcClasses

open Code ObjcClass

/-! ## Names of classes -/

theorem resultSetClass_inj {x y : String} : resultSetClass x = resultSetClass y ↔ x = y := by
  rw [resultSetClass, resultSetClass, String.append_left_inj, String.append_right_inj]

theorem returnClass_inj {p q : Procedure} : returnClass p = returnClass q ↔ p.name = q.name := by
  rw [returnClass, returnClass, String.append_left_inj, String.append_right_inj]

/-- The two kinds of classes end in different letters. -/
theorem resultSetClass_ne_returnClass (x : String) (p : Procedure) :
    resultSetClass x ≠ returnClass p := by
  intro h
  have hend := congrArg String.toList h
  simp only [resultSetClass, returnClass, String.toList_append] at hend
  have hlength : "RS".toList.length = "RT".toList.length := by decide
  exact absurd (List.append_inj_right' hend hlength) (by decide)

/-- The classes of a procedure. -/
def classNames (p : Procedure) : List String :=
  (if p.hasProjection then [resultSetClass p.name] else []) ++
    if hasReturn p then [returnClass p] else []

/-- What stands in two lists of at most one each. -/
theorem mem_optional_append {α : Type} {first second : Bool} {x y z : α} :
    x ∈ (if first then [y] else []) ++ (if second then [z] else []) ↔
      first = true ∧ x = y ∨ second = true ∧ x = z := by
  cases first <;> cases second <;> simp

theorem mem_classNames {p : Procedure} {name : String} : name ∈ classNames p ↔
    p.hasProjection = true ∧ name = resultSetClass p.name ∨
      hasReturn p = true ∧ name = returnClass p :=
  mem_optional_append

theorem mem_interfaces {legacy : Bool} {p : Procedure} {i : Interface} :
    i ∈ interfaces legacy p ↔ p.hasProjection = true ∧ i = resultSetInterface legacy p ∨
      hasReturn p = true ∧ i = returnInterface legacy p :=
  mem_optional_append

theorem mem_implementations {legacy : Bool} {p : Procedure} {m : Implementation} :
    m ∈ implementations legacy p ↔ hasReturn p = true ∧ m = returnImplementation legacy p ∨
      p.hasProjection = true ∧ m = resultSetImplementation legacy p :=
  mem_optional_append

theorem map_name_interfaces (legacy : Bool) (p : Procedure) :
    (interfaces legacy p).map Interface.name = classNames p := by
  rw [interfaces, classNames]
  cases p.hasProjection <;> cases hasReturn p <;> rfl

/-- The file with the implementations has the classes of a procedure the other way around. -/
theorem map_name_implementations_perm (legacy : Bool) (p : Procedure) :
    ((implementations legacy p).map Implementation.name).Perm (classNames p) := by
  have hmap : (implementations legacy p).map Implementation.name =
      (if hasReturn p then [returnClass p] else []) ++
        if p.hasProjection then [resultSetClass p.name] else [] := by
    rw [implementations]
    cases p.hasProjection <;> cases hasReturn p <;> rfl
  rw [hmap]
  exact List.perm_append_comm

theorem nodup_classNames (p : Procedure) : (classNames p).Nodup := by
  have hne := resultSetClass_ne_returnClass p.name p
  rw [classNames]
  cases p.hasProjection <;> cases hasReturn p <;> simp [hne]

/-- Procedures of different names share no class. -/
theorem name_eq_of_mem_classNames {p q : Procedure} {name : String} (hp : name ∈ classNames p)
    (hq : name ∈ classNames q) : p.name = q.name := by
  rw [mem_classNames] at hp hq
  obtain ⟨-, rfl⟩ | ⟨-, rfl⟩ := hp <;> obtain ⟨-, h⟩ | ⟨-, h⟩ := hq
  · exact resultSetClass_inj.1 h
  · exact absurd h (resultSetClass_ne_returnClass p.name q)
  · exact absurd h.symm (resultSetClass_ne_returnClass q.name p)
  · exact returnClass_inj.1 h

/-! ## Members of classes -/

/-- The names that the generator gives to members of its own. -/
def takenNames : List String := ["resultSet", "resultCode", "count", "hasIdentityColumns"]

/-- The arguments and the columns of a procedure have distinct names that are not taken. -/
structure HasOwnNames (p : Procedure) : Prop where
  nodup_args : (p.args.map (·.name)).Nodup
  nodup_columns : (p.columns.map (·.name)).Nodup
  args : ∀ a ∈ p.args, a.name ∉ takenNames
  columns : ∀ c ∈ p.columns, c.name ∉ takenNames

/-- What a call gives back is kept in properties: their types and names. -/
def returnFields (p : Procedure) : List (String × String) :=
  p.outArgs.map (fun a => (outputType a, a.name)) ++
  (if p.usesDatabase then [("int", "resultCode")] else []) ++
  (if p.hasProjection then [(resultSetClass p.name ++ " *_Nullable", "resultSet")] else [])

/-- The names of the properties besides those of arguments. -/
def ownProperties (p : Procedure) : List String :=
  (if p.usesDatabase then ["resultCode"] else []) ++
    if p.hasProjection then ["resultSet"] else []

theorem map_snd_returnFields (p : Procedure) :
    (returnFields p).map Prod.snd = p.outArgs.map (·.name) ++ ownProperties p := by
  rw [returnFields, ownProperties, List.map_append, List.map_append, List.map_map,
    List.append_assoc]
  cases p.usesDatabase <;> cases p.hasProjection <;> rfl

theorem nodup_returnFields_iff {p : Procedure} : ((returnFields p).map Prod.snd).Nodup ↔
    (p.outArgs.map (·.name)).Nodup ∧ ∀ a ∈ p.outArgs, a.name ∉ ownProperties p := by
  have hown : (ownProperties p).Nodup := by
    rw [ownProperties]
    cases p.usesDatabase <;> cases p.hasProjection <;> decide
  rw [map_snd_returnFields]
  exact Table.nodup_map_append_iff hown

theorem nodup_returnFields {p : Procedure} (h : HasOwnNames p) :
    ((returnFields p).map Prod.snd).Nodup := by
  have htaken : ownProperties p ⊆ takenNames := by
    rw [ownProperties]
    cases p.usesDatabase <;> cases p.hasProjection <;> decide
  refine nodup_returnFields_iff.2 ⟨List.Sublist.nodup (List.filter_sublist.map _) h.nodup_args, ?_⟩
  exact fun a ha hmem => h.args a (List.mem_of_mem_filter ha) (htaken hmem)

theorem returnIvars_eq (p : Procedure) : returnIvars p = (returnFields p).map Ivar.behind := by
  have hcode : "_resultCode" = "_" ++ "resultCode" := by decide
  have hset : "_resultSet" = "_" ++ "resultSet" := by decide
  simp only [returnIvars, returnFields, hcode, hset, List.map_append, List.map_map]
  cases p.usesDatabase <;> cases p.hasProjection <;> rfl

theorem keeps_returnImplementation (legacy : Bool) {p : Procedure} (h : HasOwnNames p) :
    (returnImplementation legacy p).Keeps (returnFields p) where
  nodup := nodup_returnFields h
  ivars := returnIvars_eq p
  synthesized := by
    have hcode : "_resultCode" = "_" ++ "resultCode" := by decide
    have hset : "_resultSet" = "_" ++ "resultSet" := by decide
    simp only [returnImplementation, returnFields, hcode, hset, List.map_append, List.map_map]
    cases p.usesDatabase <;> cases p.hasProjection <;> rfl

theorem promises_returnInterface (legacy : Bool) (p : Procedure) :
    (returnInterface legacy p).promises = p.outArgs.map outputPromise ++
      (if p.usesDatabase then [Promise.property "assign" "int" "resultCode"] else []) ++
      if p.hasProjection then
        [Promise.property "retain" (resultSetClass p.name ++ " *_Nullable") "resultSet"]
      else [] := by
  rw [Interface.promises, returnInterface]
  cases p.outArgs <;> cases p.usesDatabase <;> cases p.hasProjection <;> simp

theorem map_signature_returnInterface (legacy : Bool) (p : Procedure) :
    (returnInterface legacy p).promises.map Promise.signature =
      (returnFields p).map fun f => ⟨f.1, f.2, false⟩ := by
  rw [promises_returnInterface, returnFields]
  simp only [List.map_append, List.map_map]
  cases p.usesDatabase <;> cases p.hasProjection <;> rfl

/-- The names of the properties of a result are those of what its class keeps. -/
theorem map_name_returnInterface (legacy : Bool) (p : Procedure) :
    ((returnInterface legacy p).promises.map fun r => r.signature.name) =
      (returnFields p).map Prod.snd := by
  have hmap := congrArg (List.map Signature.name) (map_signature_returnInterface legacy p)
  rw [List.map_map, List.map_map] at hmap
  exact hmap

/-- What is read has a value, so no reader has the type of the method by which objects are
freed. -/
theorem kindedType_ne_void (type : CoreType) (kind : Option String) (notNull : Bool) :
    kindedType type kind notNull ≠ "void" := by
  have hvalue : ∀ t n, valueType t n ≠ "void" := by
    intro t n
    cases t <;> cases n <;> decide
  unfold kindedType
  split
  · intro h
    have hhead := congrArg (fun s => s.toList.head?) h
    simp [resultSetClass] at hhead
  · exact hvalue _ _

theorem type_returnFields_ne_void (p : Procedure) : ∀ f ∈ returnFields p, f.1 ≠ "void" := by
  rw [returnFields]
  simp only [List.forall_mem_append, List.forall_mem_map]
  refine ⟨⟨fun a _ => kindedType_ne_void _ _ _, ?_⟩, ?_⟩
  · cases p.usesDatabase <;> simp
  · cases p.hasProjection with
    | false => simp
    | true =>
      refine List.forall_mem_singleton.2 fun h => ?_
      have hhead := congrArg (fun s => s.toList.head?) h
      simp [resultSetClass] at hhead

/-- What a call gives back has no methods: all that is promised is kept. -/
theorem provides_return (legacy : Bool) {p : Procedure} (h : HasOwnNames p) :
    Provides (returnInterface legacy p) (returnImplementation legacy p) := by
  have hkeeps := keeps_returnImplementation legacy h
  have hsignature := map_signature_returnInterface legacy p
  refine hkeeps.provides [] ?_ ?_ ?_ (List.nil_subset _) ?_
  · rw [map_name_returnInterface]
    exact hkeeps.nodup
  · rw [promises_returnInterface, returnFields]
    simp only [List.forall_mem_append, List.forall_mem_map]
    refine ⟨⟨fun a ha => ?_, ?_⟩, ?_⟩
    · have hmem : outputPromise a ∈ p.outArgs.map outputPromise := List.mem_map_of_mem ha
      exact ⟨_, List.mem_append_left _ (List.mem_append_left _ hmem)⟩
    · cases p.usesDatabase <;> simp
    · cases p.hasProjection <;> simp
  · -- no property of a result is of the type that frees one
    have htype : ∀ q ∈ (returnInterface legacy p).promises.map Promise.signature,
        q.type ≠ "void" := by
      rw [hsignature, List.forall_mem_map]
      exact type_returnFields_ne_void p
    rw [List.forall_mem_map] at htype
    exact fun r hr hfree => htype r hr (congrArg Signature.type hfree)
  · rw [List.append_nil, hsignature, Implementation.provided, hkeeps.stored_eq]
    exact .refl _

theorem signature_columnPromise (p : Procedure) (c : Column) :
    (columnPromise p c).signature = (columnMethod p c).signature := by
  rw [columnPromise, columnMethod]
  cases p.hasOutResult <;> rfl

theorem promises_resultSetInterface (legacy : Bool) (p : Procedure) :
    (resultSetInterface legacy p).promises = p.columns.map (columnPromise p) ++
      [Promise.property "assign" (refType p) "resultSet",
        .property "readonly" "cql_bool" "hasIdentityColumns",
        .property "readonly" "int" "count"] := by
  simp [Interface.promises, resultSetInterface]

theorem map_name_resultSetInterface (legacy : Bool) (p : Procedure) :
    (resultSetInterface legacy p).promises.map (fun r => r.signature.name) =
      p.columns.map (·.name) ++ ["resultSet", "hasIdentityColumns", "count"] := by
  have hname : ∀ c, (columnPromise p c).signature.name = c.name := by
    intro c
    rw [signature_columnPromise]
    rfl
  rw [promises_resultSetInterface, List.map_append, List.map_map]
  exact congrArg (· ++ _) (List.map_congr_left fun c _ => hname c)

theorem keeps_resultSetImplementation (legacy : Bool) (p : Procedure) :
    (resultSetImplementation legacy p).Keeps [(refType p, "resultSet")] where
  nodup := List.nodup_singleton _
  ivars := rfl
  synthesized := rfl

/-- A result set has a method for each column and for what it knows of all its rows, beside the
method by which it is freed. -/
theorem provides_resultSet (legacy : Bool) {p : Procedure} (h : HasOwnNames p) :
    Provides (resultSetInterface legacy p) (resultSetImplementation legacy p) := by
  have hpromises := promises_resultSetInterface legacy p
  refine (keeps_resultSetImplementation legacy p).provides [freeing] ?_ ?_ ?_
    (List.Subset.refl _) ?_
  · have htaken : ["resultSet", "hasIdentityColumns", "count"] ⊆ takenNames := by decide
    rw [map_name_resultSetInterface]
    exact (Table.nodup_map_append_iff (by decide)).2
      ⟨h.nodup_columns, fun c hc hmem => h.columns c hc (htaken hmem)⟩
  · rw [hpromises]
    simp
  · rw [hpromises]
    simp only [List.forall_mem_append, List.forall_mem_map]
    refine ⟨fun c _ hfree => ?_, by simp [Promise.signature, freeing]⟩
    have htype : (columnPromise p c).signature.type = columnType c := by
      rw [signature_columnPromise]
      rfl
    exact kindedType_ne_void _ _ _ (htype.symm.trans (congrArg Signature.type hfree))
  · rw [Implementation.provided, (keeps_resultSetImplementation legacy p).stored_eq, hpromises]
    have hcolumns : (p.columns.map (columnPromise p)).map Promise.signature =
        (p.columns.map (columnMethod p)).map Method.signature := by
      simp only [List.map_map]
      exact List.map_congr_left fun c _ => signature_columnPromise p c
    rw [List.map_append, hcolumns]
    simp only [Implementation.methods, resultSetImplementation, List.map_append, List.append_assoc]
    apply List.Perm.append_left
    -- the property that is kept stands before the methods in one, behind them in the other
    exact List.perm_append_singleton _ [_, _, _]

/-! ## The two files -/

/-- The classes that the header declares. -/
def declared (legacy : Bool) (s : Schema) : List Interface := s.wrapped.flatMap (interfaces legacy)

/-- The classes that the implementation file implements. -/
def defined (legacy : Bool) (s : Schema) : List Implementation :=
  s.wrapped.flatMap (implementations legacy)

/-- The declaration of a function. -/
def prototype (f : Function) : Prototype := ⟨f.result, f.symbol, f.params⟩

/-- The classes of a schema are declared as they are implemented. -/
structure SameClasses (legacy : Bool) (s : Schema) : Prop where
  /-- Each procedure that gets wrappers has its classes. -/
  classes : (declared legacy s).map Interface.name = s.wrapped.flatMap classNames
  /-- The class of a result set has a reader for each column. -/
  columns : ∀ p ∈ s.wrapped, ∀ i ∈ declared legacy s, i.name = resultSetClass p.name →
    i.promises.map (fun r => r.signature.name) =
      p.columns.map (·.name) ++ ["resultSet", "hasIdentityColumns", "count"]
  /-- The class of what a call gives back has a property for each argument given back. -/
  outputs : ∀ p ∈ s.wrapped, ∀ i ∈ declared legacy s, i.name = returnClass p →
    i.promises.map (fun r => r.signature.name) = p.outArgs.map (·.name) ++ ownProperties p
  names : ((declared legacy s).map Interface.name).Perm ((defined legacy s).map Implementation.name)
  /-- No class is declared twice. -/
  nodup : ((declared legacy s).map Interface.name).Nodup
  /-- The implementation of a class provides what its interface promises. -/
  provides : ∀ i ∈ declared legacy s, ∀ m ∈ defined legacy s, i.name = m.name → Provides i m
  /-- Interfaces list the variables of the implementation or none. -/
  ivars : ∀ i ∈ declared legacy s, ∀ m ∈ defined legacy s, i.name = m.name →
    i.ivars = if legacy then some m.ivars else none

theorem nodup_declared (legacy : Bool) {s : Schema} (h : (s.procedures.map (·.name)).Nodup) :
    ((declared legacy s).map Interface.name).Nodup := by
  have hwrapped : (s.wrapped.map (·.name)).Nodup :=
    List.Sublist.nodup (List.filter_sublist.map _) h
  rw [declared, List.map_flatMap]
  simp only [map_name_interfaces]
  rw [List.nodup_flatMap]
  refine ⟨fun p _ => nodup_classNames p, (List.pairwise_map.1 hwrapped).imp fun hne => ?_⟩
  exact fun name hp hq => hne (name_eq_of_mem_classNames hp hq)

/-- The interface of a class is known by the name of the class. -/
theorem eq_of_mem_declared {legacy : Bool} {s : Schema} (h : (s.procedures.map (·.name)).Nodup)
    {i : Interface} (hi : i ∈ declared legacy s) {p : Procedure} (hp : p ∈ s.wrapped) :
    (i.name = resultSetClass p.name → i = resultSetInterface legacy p) ∧
      (i.name = returnClass p → i = returnInterface legacy p) := by
  obtain ⟨q, hq, hiq⟩ := List.mem_flatMap.1 hi
  have hsame : q.name = p.name → q = p :=
    List.inj_on_of_nodup_map h (List.mem_of_mem_filter hq) (List.mem_of_mem_filter hp)
  constructor
  · intro hname
    obtain ⟨-, rfl⟩ | ⟨-, rfl⟩ := mem_interfaces.1 hiq
    · rw [hsame (resultSetClass_inj.1 hname)]
    · exact absurd hname.symm (resultSetClass_ne_returnClass p.name q)
  · intro hname
    obtain ⟨-, rfl⟩ | ⟨-, rfl⟩ := mem_interfaces.1 hiq
    · exact absurd hname (resultSetClass_ne_returnClass q.name p)
    · rw [hsame (returnClass_inj.1 hname)]

theorem map_name_declared_perm (legacy : Bool) (s : Schema) :
    ((declared legacy s).map Interface.name).Perm
      ((defined legacy s).map Implementation.name) := by
  rw [declared, defined, List.map_flatMap, List.map_flatMap]
  apply List.Perm.flatMap_left
  intro p _
  rw [map_name_interfaces]
  exact (map_name_implementations_perm legacy p).symm

/-- An interface and an implementation of one name are the two halves of one class. -/
theorem halves_of_name_eq {legacy : Bool} {s : Schema} (h : (s.procedures.map (·.name)).Nodup)
    {i : Interface} {m : Implementation} (hi : i ∈ declared legacy s) (hm : m ∈ defined legacy s)
    (hname : i.name = m.name) : ∃ p ∈ s.wrapped,
      i = resultSetInterface legacy p ∧ m = resultSetImplementation legacy p ∨
        i = returnInterface legacy p ∧ m = returnImplementation legacy p := by
  obtain ⟨p, hp, hip⟩ := List.mem_flatMap.1 hi
  obtain ⟨q, hq, hmq⟩ := List.mem_flatMap.1 hm
  have hpq : p = q := by
    have hiname : i.name ∈ classNames p := map_name_interfaces legacy p ▸ List.mem_map_of_mem hip
    have hmname : m.name ∈ classNames q :=
      (map_name_implementations_perm legacy q).mem_iff.1 (List.mem_map_of_mem hmq)
    exact List.inj_on_of_nodup_map h (List.mem_of_mem_filter hp) (List.mem_of_mem_filter hq)
      (name_eq_of_mem_classNames hiname (hname ▸ hmname))
  subst hpq
  refine ⟨p, hp, ?_⟩
  have hne : resultSetClass p.name ≠ returnClass p := resultSetClass_ne_returnClass _ p
  obtain ⟨-, rfl⟩ | ⟨-, rfl⟩ := mem_interfaces.1 hip <;>
    obtain ⟨-, rfl⟩ | ⟨-, rfl⟩ := mem_implementations.1 hmq
  · exact absurd hname hne
  · exact .inl ⟨rfl, rfl⟩
  · exact .inr ⟨rfl, rfl⟩
  · exact absurd hname.symm hne

theorem inOrder_headerText (legacy : Bool) (header : String) (s : Schema) :
    Text.InOrder
      (s.wrapped.flatMap fun p =>
        (interfaces legacy p).map Interface.written ++ [(entryPoint p).written])
      (headerText ⟨header, legacy⟩ s) := by
  refine .before (.after _ (.join_flatMap fun p _ => ?_)) _
  have hclasses : Text.InOrder ((interfaces legacy p).map Interface.written)
      (String.join ((interfaces legacy p).map Interface.text)) :=
    .join fun i _ => inOrder_interface i
  rw [← text_prototype]
  exact ((hclasses.before (entryComment p)).append (.self _)).before "\n"

theorem inOrder_implementationText (legacy : Bool) (header : String) (s : Schema) :
    Text.InOrder
      (s.wrapped.flatMap fun p =>
        (implementations legacy p).map Implementation.written ++ [(function p).stackedHead])
      (implementationText ⟨header, legacy⟩ s) := by
  refine .after _ (.join_flatMap fun p _ => ?_)
  have hclasses : Text.InOrder ((implementations legacy p).map Implementation.written)
      (String.join ((implementations legacy p).map Implementation.text)) :=
    .join fun m _ => inOrder_implementation m
  exact (hclasses.before (entryComment p)).append (Function.inOrder_stackedHead _)

theorem sameClasses_of_nodup (legacy : Bool) {s : Schema}
    (hnodup : (s.procedures.map (·.name)).Nodup) (hnames : ∀ p ∈ s.procedures, HasOwnNames p) :
    SameClasses legacy s where
  classes := by
    rw [declared, List.map_flatMap]
    exact List.flatMap_congr fun p _ => map_name_interfaces legacy p
  columns p hp i hi hname := by
    rw [(eq_of_mem_declared hnodup hi hp).1 hname]
    exact map_name_resultSetInterface legacy p
  outputs p hp i hi hname := by
    rw [(eq_of_mem_declared hnodup hi hp).2 hname, ← map_snd_returnFields]
    exact map_name_returnInterface legacy p
  names := map_name_declared_perm legacy s
  nodup := nodup_declared legacy hnodup
  provides i hi m hm hname := by
    obtain ⟨p, hp, ⟨rfl, rfl⟩ | ⟨rfl, rfl⟩⟩ := halves_of_name_eq hnodup hi hm hname
    · exact provides_resultSet legacy (hnames p (List.mem_of_mem_filter hp))
    · exact provides_return legacy (hnames p (List.mem_of_mem_filter hp))
  ivars i hi m hm hname := by
    obtain ⟨p, -, ⟨rfl, rfl⟩ | ⟨rfl, rfl⟩⟩ := halves_of_name_eq hnodup hi hm hname
    · rfl
    · rfl

/-- The header and the implementation file describe the same classes and the same functions, in
either mode and whatever headers the files import. -/
theorem sameClasses (legacy : Bool) (header header' : String) {s : Schema}
    (hnodup : (s.procedures.map (·.name)).Nodup) (hnames : ∀ p ∈ s.procedures, HasOwnNames p) :
    SameClasses legacy s ∧
      (s.wrapped.map fun p => prototype (function p)) = s.wrapped.map entryPoint ∧
      Text.InOrder
        (s.wrapped.flatMap fun p =>
          (interfaces legacy p).map Interface.written ++ [(entryPoint p).written])
        (headerText ⟨header, legacy⟩ s) ∧
      Text.InOrder
        (s.wrapped.flatMap fun p =>
          (implementations legacy p).map Implementation.written ++ [(function p).stackedHead])
        (implementationText ⟨header', legacy⟩ s) := by
  exact ⟨sameClasses_of_nodup legacy hnodup hnames, rfl, inOrder_headerText legacy header s,
    inOrder_implementationText legacy header' s⟩

/-- A query with a column, an argument and a code to give back, and a procedure without a result
set. -/
def shop : Schema where
  queries :=
    [⟨"orders", [⟨"customer", .text, true, .inOnly, none, false⟩,
        ⟨"total", .real, false, .outOnly, none, false⟩],
      some [⟨"lines", .object, false, some "order_lines SET", false⟩], [], some true, false⟩]
  deletes := [⟨"purge", [⟨"left", .long, true, .inOut, none, false⟩], none, [], some true, false⟩]
  inserts := []
  generalInserts := []
  updates := []
  general := []

theorem sameClasses_shop :
    (shop.procedures.map (·.name)).Nodup ∧ (∀ p ∈ shop.procedures, HasOwnNames p) ∧
      SameClasses true shop ∧ SameClasses false shop := by
  have hnodup : (shop.procedures.map (·.name)).Nodup := by decide
  have hnames : ∀ p ∈ shop.procedures, HasOwnNames p := by
    simp only [shop, Schema.procedures, List.append_nil, List.forall_mem_append,
      List.forall_mem_singleton]
    constructor <;> constructor <;> decide
  exact ⟨hnodup, hnames, (sameClasses true "shop.h" "shop_objc.h" hnodup hnames).1,
    (sameClasses false "shop.h" "shop_objc.h" hnodup hnames).1⟩

end ObjcClasses

end CqlGlue
