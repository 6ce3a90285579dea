import CqlGlue.Proofs.Sqlite.Declarations
import CqlGlue.Proofs.Table
import Mathlib.Data.List.Pairwise
import Mathlib.Data.List.Perm.Basic

/-!
# Names in generated functions

The arguments of a procedure share a scope with the variables that a generated function has of
its own, and with variables whose names are made of those of arguments. No generator looks for a
name that is free. So a function declares each name once exactly where the names of the
arguments keep clear of the others.

## Main definitions
* `Function.declaredNames` are the names that the scope of a body declares.
* `holders` are the variables that hold an argument, `NativeStyle.ownNames` those of a function.
* `CSharpNative.KeepClear` and `JavaNative.KeepClear` are the conditions on the arguments.

## Main statements
* `nodup_declaredNames_iff`, one for each kind of function.
-/

namespace CqlGlue

namespace Code

/-- The parameters of a function and the variables in the scope of its body. -/
def Function.declaredNames (f : Function) : List String := (f.scope f.body).map Prod.snd

theorem Function.declaredNames_eq (f : Function) :
    f.declaredNames = f.params.map (·.name) ++ (Stmt.declaredIn f.body).map Prod.snd := by
  rw [declaredNames, scope, List.map_append, List.map_map]
  rfl

namespace Stmt

@[simp] theorem declaredIn_setOff (ss : List Stmt) : declaredIn (setOff ss) = declaredIn ss := by
  cases ss with
  | nil => rfl
  | cons s ss => exact (declaredIn_append (s :: ss) [blank]).trans (List.append_nil _)

theorem declaredIn_flatMap {α : Type} (f : α → List Stmt) (xs : List α) :
    declaredIn (xs.flatMap f) = xs.flatMap fun x => declaredIn (f x) := List.filterMap_flatMap

end Stmt

end Code

open Code

/-! ## SQLite -/

namespace SqliteWrapper

variable {p : Procedure}

theorem ownVariables_eq (p : Procedure) : ownVariables p =
    (if p.hasProjection then ["db", "argc", "argv", "result"] else ["context", "argc", "argv"]) ++
    (if p.usesDatabase then "rc" :: if p.hasProjection then [] else ["db"] else []) ++
    if p.hasProjection then ["_data_result_set_"] else [] := by
  rw [ownVariables, params, dependencies]
  cases p.usesDatabase <;> cases p.hasProjection <;> rfl

theorem nodup_ownVariables (p : Procedure) : (ownVariables p).Nodup := by
  rw [ownVariables_eq]
  cases p.usesDatabase <;> cases p.hasProjection <;> decide

theorem declaredNames_perm (v : Verbosity) (name : String) (p : Procedure) :
    (function v name p).declaredNames.Perm (p.args.map (·.name) ++ ownVariables p) := by
  have hbody : Stmt.declaredIn (function v name p).body =
      Stmt.declaredIn (shown v (preparation p)) := by
    rw [show (function v name p).body = shown v (body p) from rfl, shown_body,
      Stmt.declaredIn_append]
    exact (congrArg (_ ++ ·) (declaredIn_completion v p)).trans (List.append_nil _)
  have hargs : ((declaredArgs p).map fun a => (a.storage, a.name)).map Prod.snd =
      (declaredArgs p).map (·.name) := by
    rw [List.map_map]
    rfl
  rw [Function.declaredNames_eq, hbody, declaredIn_preparation, List.map_append, hargs,
    ownVariables, ← List.append_assoc, ← List.append_assoc]
  refine List.Perm.append_right _ ?_
  exact List.perm_append_comm.trans (((declaredArgs_perm p).map _).append_right _)

/-- A wrapper declares each name once exactly where no argument is called like a variable of its
own. -/
theorem nodup_declaredNames_iff (v : Verbosity) (name : String)
    (hnames : (p.args.map (·.name)).Nodup) :
    (function v name p).declaredNames.Nodup ↔ ∀ a ∈ p.args, a.name ∉ ownVariables p := by
  rw [(declaredNames_perm v name p).nodup_iff,
    Table.nodup_map_append_iff (nodup_ownVariables p)]
  exact and_iff_right hnames

end SqliteWrapper

/-! ## Managed languages -/

/-- What the name of the variable begins with that holds an argument. References and values that
may be null are held by one. -/
def holderPrefix? (a : Argument) : Option String :=
  match a.type with
  | .text => some "str_ref_"
  | .blob => some "blob_ref_"
  | .object => none
  | _ => if a.isNotNull then none else some "n_"

/-- The variable that holds an argument, if there is one. -/
def holders (a : Argument) : List String := (holderPrefix? a).toList.map (· ++ a.name)

theorem mem_holders {a : Argument} {x : String} :
    x ∈ holders a ↔ ∃ pre, holderPrefix? a = some pre ∧ pre ++ a.name = x := by
  simp [holders]

theorem holderPrefix?_mem {a : Argument} {pre : String} (h : holderPrefix? a = some pre) :
    pre ∈ ["str_ref_", "blob_ref_", "n_"] := by
  rw [holderPrefix?] at h
  split at h <;> try split at h
  all_goals cases h <;> decide

/-- Variables that hold arguments of different names have different names. -/
theorem name_eq_of_holders {a b : Argument} {x : String} (ha : x ∈ holders a)
    (hb : x ∈ holders b) : a.name = b.name := by
  obtain ⟨pre, hpre, rfl⟩ := mem_holders.1 ha
  obtain ⟨pre', hpre', heq⟩ := mem_holders.1 hb
  have hmem := holderPrefix?_mem hpre
  have hmem' := holderPrefix?_mem hpre'
  -- the first letter tells the prefixes apart
  have hsame : pre' = pre := by
    have hhead := congrArg (fun s => s.toList.head?) heq
    simp only [List.mem_cons, List.not_mem_nil, or_false] at hmem hmem'
    rcases hmem with rfl | rfl | rfl <;> rcases hmem' with rfl | rfl | rfl <;>
      first | rfl | simp at hhead
  subst hsame
  exact ((String.append_right_inj pre').1 heq).symm

theorem nodup_holders {p : Procedure} (hnames : (p.inArgs.map (·.name)).Nodup) :
    (p.inArgs.flatMap holders).Nodup := by
  rw [List.nodup_flatMap]
  refine ⟨fun a _ => ?_, (List.pairwise_map.1 hnames).imp fun hne x ha hb => ?_⟩
  · rw [holders]
    cases holderPrefix? a with
    | none => exact List.nodup_nil
    | some pre => exact List.nodup_singleton _
  · exact hne (name_eq_of_holders ha hb)

/-- A text that begins like none of the variables that hold arguments is not one of them. -/
theorem not_mem_holders {a : Argument} {x : String}
    (h : ∀ pre ∈ ["str_ref_", "blob_ref_", "n_"], ¬ pre.toList <+: x.toList) : x ∉ holders a := by
  intro hx
  obtain ⟨pre, hpre, rfl⟩ := mem_holders.1 hx
  refine h pre (holderPrefix?_mem hpre) ?_
  rw [String.toList_append]
  exact List.prefix_append ..

/-- What some elements of a list give. -/
theorem flatMap_ite {α β : Type} (c : α → Bool) (f : α → List β) (xs : List α) :
    (xs.flatMap fun x => if c x then f x else []) = (xs.filter c).flatMap f := by
  induction xs with
  | nil => rfl
  | cons x xs ih =>
    rw [List.flatMap_cons, ih, List.filter_cons]
    cases c x <;> simp

namespace NativeStyle

/-- The names that an entry point declares besides those of its arguments. -/
def ownNames (style : NativeStyle) (p : Procedure) : List String :=
  (if p.usesDatabase then ["__db", "rc"] else []) ++
  (if p.hasProjection then [style.resultSet] else []) ++
  if ReturnRow.isEmpty p then [] else [style.outputs, "row", "info"]

/-- Before the call an entry point declares the variables that hold what comes in, and behind it
nothing for its arguments. -/
structure DeclaresHolders (style : NativeStyle) : Prop where
  before : ∀ a, (Stmt.declaredIn (style.marshal a).before).map Prod.snd =
    if a.binding.isInput then holders a else []
  after : ∀ a, Stmt.declaredIn (style.marshal a).after = []
  notes : Stmt.declaredIn style.notes = []

variable {style : NativeStyle} {p : Procedure} {f : Function} {context names : List String}

theorem DeclaresHolders.map_declaredIn (h : style.DeclaresHolders) (p : Procedure) :
    (Stmt.declaredIn (style.body p)).map Prod.snd =
      (if p.usesDatabase then ["rc"] else []) ++
      (if p.hasProjection then [style.resultSet] else []) ++
      (if ReturnRow.isEmpty p then [] else [style.outputs, "row"]) ++
      p.inArgs.flatMap holders ++ if ReturnRow.isEmpty p then [] else ["info"] := by
  have hlocals : (Stmt.declaredIn (style.locals p)).map Prod.snd =
      (if p.usesDatabase then ["rc"] else []) ++
      (if p.hasProjection then [style.resultSet] else []) ++
      if ReturnRow.isEmpty p then [] else [style.outputs, "row"] := by
    rw [declaredIn_locals, List.map_append, List.map_append]
    cases p.usesDatabase <;> cases p.hasProjection <;> cases ReturnRow.isEmpty p <;> rfl
  have hbefore : (p.args.flatMap fun a => Stmt.declaredIn (style.marshal a).before).map Prod.snd =
      p.inArgs.flatMap holders := by
    rw [List.map_flatMap]
    simp only [h.before]
    exact flatMap_ite (fun a => a.binding.isInput) holders p.args
  have hafter : (p.args.flatMap fun a => Stmt.declaredIn (style.marshal a).after) = [] := by
    simp [h.after]
  have hhandover : (Stmt.declaredIn (style.handover p)).map Prod.snd =
      if ReturnRow.isEmpty p then [] else ["info"] := by
    rw [handover]
    cases ReturnRow.isEmpty p <;> cases p.usesDatabase <;> cases p.hasProjection <;> rfl
  have hcall : Stmt.declaredIn [.call (style.call p)] = [] := rfl
  simp only [body, Stmt.declaredIn_append, Stmt.declaredIn_setOff, Stmt.declaredIn_flatMap,
    List.map_append, hlocals, hbefore, hafter, hhandover, hcall, h.notes, List.append_nil]

/-- The names of an entry point, those that are its own first. -/
theorem DeclaresHolders.declaredNames_perm (h : style.DeclaresHolders)
    (hbody : f.body = style.body p)
    (hparams : f.params.map (·.name) =
      context ++ (if p.usesDatabase then ["__db"] else []) ++ names) :
    f.declaredNames.Perm
      ((context ++ style.ownNames p) ++ (names ++ p.inArgs.flatMap holders)) := by
  have hdatabase : (if p.usesDatabase then ["__db", "rc"] else []) =
      (if p.usesDatabase then ["__db"] else []) ++ if p.usesDatabase then ["rc"] else [] := by
    cases p.usesDatabase <;> rfl
  have hrow : (if ReturnRow.isEmpty p then [] else [style.outputs, "row", "info"]) =
      (if ReturnRow.isEmpty p then [] else [style.outputs, "row"]) ++
        if ReturnRow.isEmpty p then [] else ["info"] := by
    cases ReturnRow.isEmpty p <;> rfl
  rw [Function.declaredNames_eq, hbody, h.map_declaredIn, hparams, ownNames, hdatabase, hrow,
    List.perm_iff_count]
  intro x
  simp only [List.count_append]
  omega

/-- Where the own names of an entry point are distinct and hold no argument, it declares each
name once exactly where the names of its parameters are distinct, not its own, and not those of
the variables that hold arguments. -/
theorem DeclaresHolders.nodup_declaredNames_iff (h : style.DeclaresHolders)
    (hbody : f.body = style.body p)
    (hparams : f.params.map (·.name) =
      context ++ (if p.usesDatabase then ["__db"] else []) ++ names)
    (hargs : (p.args.map (·.name)).Nodup) (hown : (context ++ style.ownNames p).Nodup)
    (hholders : ∀ x ∈ context ++ style.ownNames p, ∀ a, x ∉ holders a) :
    f.declaredNames.Nodup ↔ names.Nodup ∧ (∀ x ∈ names, x ∉ context ++ style.ownNames p) ∧
      ∀ x ∈ names, ∀ a ∈ p.inArgs, x ∉ holders a := by
  have hheld : (p.inArgs.flatMap holders).Nodup :=
    nodup_holders (List.Sublist.nodup (List.filter_sublist.map _) hargs)
  have hapart : List.Disjoint (context ++ style.ownNames p) (p.inArgs.flatMap holders) := by
    intro x hx hheld
    obtain ⟨a, -, ha⟩ := List.mem_flatMap.1 hheld
    exact hholders x hx a ha
  rw [(h.declaredNames_perm hbody hparams).nodup_iff]
  generalize context ++ style.ownNames p = own at hown hapart ⊢
  rw [List.nodup_append', List.nodup_append', List.disjoint_append_right]
  constructor
  · rintro ⟨-, ⟨hnames, -, hfree⟩, hclear, -⟩
    exact ⟨hnames, fun x hx hmem => hclear hmem hx,
      fun x hx a ha hmem => hfree hx (List.mem_flatMap.2 ⟨a, ha, hmem⟩)⟩
  · rintro ⟨hnames, hclear, hfree⟩
    refine ⟨hown, ⟨hnames, hheld, fun x hx hmem => ?_⟩, fun x hmem hx => hclear x hx hmem, hapart⟩
    obtain ⟨a, ha, hmem⟩ := List.mem_flatMap.1 hmem
    exact hfree x hx a ha hmem

end NativeStyle

/-! ## C# -/

namespace CSharpNative

/-- The names of the parameters for an argument. -/
def paramNames (a : Argument) : List String := (paramsOf a).map (·.name)

theorem paramNames_eq (a : Argument) : paramNames a =
    if a.isNullableValue then [a.name ++ "_has_value", a.name ++ "_value"] else [a.name] := by
  rw [paramNames, paramsOf]
  split <;> rfl

/-- The names of the arguments that come in keep clear of each other's parts and of what an entry
point declares besides. A value that may be null comes in as two parameters. -/
structure KeepClear (p : Procedure) : Prop where
  /-- What comes in whole is not called like a variable of the entry point. -/
  own : ∀ a ∈ p.inArgs, a.isNullableValue = false → a.name ∉ style.ownNames p
  /-- No parameter is called like the variable that holds an argument. -/
  held : ∀ a ∈ p.inArgs, ∀ x ∈ paramNames a, ∀ b ∈ p.inArgs, x ∉ holders b
  /-- What comes in whole is not called like one of two parameters. -/
  whole : ∀ a ∈ p.inArgs, a.isNullableValue = false → ∀ b ∈ p.inArgs, b.isNullableValue = true →
    a.name ∉ [b.name ++ "_has_value", b.name ++ "_value"]
  /-- Of two arguments that come in as two parameters, none is called like the other with an
  ending by which its value would be the other's flag. -/
  halves : ∀ a ∈ p.inArgs, a.isNullableValue = true → ∀ b ∈ p.inArgs, b.isNullableValue = true →
    a.name ≠ b.name ++ "_has"

theorem declaresHolders : style.DeclaresHolders where
  before a := by
    change (Stmt.declaredIn (marshal a).before).map Prod.snd = _
    obtain ⟨name, type, notNull, binding, kind, isSensitive⟩ := a
    cases binding <;> cases type <;> cases notNull <;> rfl
  after a := by
    change Stmt.declaredIn (marshal a).after = []
    obtain ⟨name, type, notNull, binding, kind, isSensitive⟩ := a
    cases binding <;> cases type <;> cases notNull <;> rfl
  notes := rfl

/-- The names that entry points declare besides those of arguments. -/
def fixedNames : List String :=
  ["__db", "rc", "_data_result_set_", "outputs_result_set", "row", "info"]

theorem ownNames_subset (p : Procedure) : style.ownNames p ⊆ fixedNames := by
  rw [NativeStyle.ownNames]
  cases p.usesDatabase <;> cases p.hasProjection <;> cases ReturnRow.isEmpty p <;>
    simp [style, fixedNames]

theorem nodup_ownNames (p : Procedure) : (style.ownNames p).Nodup := by
  rw [NativeStyle.ownNames]
  cases p.usesDatabase <;> cases p.hasProjection <;> cases ReturnRow.isEmpty p <;>
    simp [style]

theorem has_value_eq (x : String) : x ++ "_has_value" = x ++ "_has" ++ "_value" := by
  have hsplit : "_has_value" = "_has" ++ "_value" := by decide
  rw [String.append_assoc, ← hsplit]

theorem nodup_paramNames (a : Argument) : (paramNames a).Nodup := by
  have hne : a.name ++ "_has_value" ≠ a.name ++ "_value" :=
    fun h => absurd ((String.append_right_inj _).1 h) (by decide)
  rw [paramNames_eq]
  split <;> simp [hne]

/-- The parameters of two arguments of different names share a name exactly where the one is
called like a part of the other, or their parts are. -/
theorem disjoint_paramNames_iff {a b : Argument} (hne : a.name ≠ b.name) :
    List.Disjoint (paramNames a) (paramNames b) ↔
      match a.isNullableValue, b.isNullableValue with
      | false, false => True
      | false, true => a.name ∉ [b.name ++ "_has_value", b.name ++ "_value"]
      | true, false => b.name ∉ [a.name ++ "_has_value", a.name ++ "_value"]
      | true, true => a.name ≠ b.name ++ "_has" ∧ b.name ≠ a.name ++ "_has" := by
  rw [paramNames_eq, paramNames_eq]
  cases a.isNullableValue <;> cases b.isNullableValue
  · simpa using Ne.symm hne
  · simp
  · simp
  · simp only [if_true, List.disjoint_cons_left, List.mem_cons, List.not_mem_nil, or_false,
      List.disjoint_nil_left, and_true, has_value_eq, String.append_left_inj, hne, false_or]
    tauto

/-- The parameters of arguments of distinct names have distinct names where no argument is called
like a part of another, and no part like that of another. -/
theorem nodup_flatMap_paramNames_iff {xs : List Argument} (hnames : (xs.map (·.name)).Nodup) :
    (xs.flatMap paramNames).Nodup ↔
      (∀ a ∈ xs, a.isNullableValue = false → ∀ b ∈ xs, b.isNullableValue = true →
        a.name ∉ [b.name ++ "_has_value", b.name ++ "_value"]) ∧
      ∀ a ∈ xs, a.isNullableValue = true → ∀ b ∈ xs, b.isNullableValue = true →
        a.name ≠ b.name ++ "_has" := by
  rw [List.nodup_flatMap]
  constructor
  · rintro ⟨-, hpairs⟩
    have hsymm : Std.Symm (Function.onFun List.Disjoint paramNames) :=
      ⟨fun _ _ h x hx hx' => h hx' hx⟩
    have hapart : ∀ a ∈ xs, ∀ b ∈ xs, a.name ≠ b.name →
        List.Disjoint (paramNames a) (paramNames b) :=
      fun a ha b hb hne => hpairs.forall ha hb (ne_of_apply_ne (·.name) hne)
    constructor
    · intro a ha hwhole b hb hparts
      have hne : a.name ≠ b.name := by
        intro heq
        obtain rfl := List.inj_on_of_nodup_map hnames ha hb heq
        exact Bool.false_ne_true (hwhole.symm.trans hparts)
      simpa [hwhole, hparts] using (disjoint_paramNames_iff hne).1 (hapart a ha b hb hne)
    · intro a ha hparts b hb hparts' heq
      have hne : a.name ≠ b.name := by
        intro heq'
        have hlength := congrArg String.length (heq.symm.trans heq')
        simp at hlength
      have hclear := (disjoint_paramNames_iff hne).1 (hapart a ha b hb hne)
      rw [hparts, hparts'] at hclear
      exact hclear.1 heq
  · rintro ⟨hwhole, hhalves⟩
    refine ⟨fun a _ => nodup_paramNames a, (List.pairwise_map.1 hnames).imp_of_mem ?_⟩
    intro a b ha hb hne
    refine (disjoint_paramNames_iff hne).2 ?_
    cases hna : a.isNullableValue <;> cases hnb : b.isNullableValue
    · trivial
    · exact hwhole a ha hna b hb hnb
    · exact hwhole b hb hnb a ha hna
    · exact ⟨hhalves a ha hna b hb hnb, hhalves b hb hnb a ha hna⟩

/-- An entry point declares each name once exactly where the names of its arguments keep
clear. -/
theorem nodup_declaredNames_iff (o : Options) {p : Procedure}
    (hargs : (p.args.map (·.name)).Nodup) :
    (entryPoint o p).declaredNames.Nodup ↔ KeepClear p := by
  have hins : (p.inArgs.map (·.name)).Nodup :=
    List.Sublist.nodup (List.filter_sublist.map _) hargs
  have hparams : (entryPoint o p).params.map (·.name) =
      [] ++ (if p.usesDatabase then ["__db"] else []) ++ p.inArgs.flatMap paramNames := by
    change (params p).map (·.name) = _
    rw [params, List.map_append, List.map_flatMap, List.nil_append]
    cases p.usesDatabase <;> rfl
  have hheld : ∀ x ∈ [] ++ style.ownNames p, ∀ a, x ∉ holders a := by
    have hfixed : ∀ x ∈ fixedNames, ∀ pre ∈ ["str_ref_", "blob_ref_", "n_"],
        ¬ pre.toList <+: x.toList := by decide
    exact fun x hx a => not_mem_holders (hfixed x (ownNames_subset p hx))
  -- the names of the two parameters for one argument have an ending that no own name has
  have hends : ∀ x, "_value".toList <:+ x.toList → x ∉ style.ownNames p := by
    have hfixed : ∀ x ∈ fixedNames, ¬ "_value".toList <:+ x.toList := by decide
    exact fun x hend hx => hfixed x (ownNames_subset p hx) hend
  rw [declaresHolders.nodup_declaredNames_iff rfl hparams hargs (nodup_ownNames p) hheld,
    nodup_flatMap_paramNames_iff hins, List.nil_append]
  constructor
  · rintro ⟨⟨hwhole, hhalves⟩, hown, hheld⟩
    refine ⟨fun a ha hna => hown a.name ?_, fun a ha x hx => hheld x ?_, hwhole, hhalves⟩
    · exact List.mem_flatMap.2 ⟨a, ha, by simp [paramNames_eq, hna]⟩
    · exact List.mem_flatMap.2 ⟨a, ha, hx⟩
  · intro h
    refine ⟨⟨h.whole, h.halves⟩, fun x hx => ?_, fun x hx => ?_⟩
    · obtain ⟨a, ha, hx⟩ := List.mem_flatMap.1 hx
      rw [paramNames_eq] at hx
      cases hna : a.isNullableValue with
      | false =>
        rw [hna] at hx
        exact List.mem_singleton.1 hx ▸ h.own a ha hna
      | true =>
        refine hends x ?_
        simp only [hna, if_true, List.mem_cons, List.not_mem_nil, or_false, has_value_eq] at hx
        rcases hx with rfl | rfl <;> exact suffix_append ..
    · obtain ⟨a, ha, hx⟩ := List.mem_flatMap.1 hx
      exact h.held a ha x hx

end CSharpNative

/-! ## Java -/

namespace JavaNative

/-- The names that an entry point declares besides those of its arguments. -/
def ownNames (p : Procedure) : List String := ["env", "thiz"] ++ style.ownNames p

/-- No argument that comes in is called like a variable of the entry point or like one that holds
an argument. -/
structure KeepClear (p : Procedure) : Prop where
  own : ∀ a ∈ p.inArgs, a.name ∉ ownNames p
  held : ∀ a ∈ p.inArgs, ∀ b ∈ p.inArgs, a.name ∉ holders b

theorem declaresHolders : style.DeclaresHolders where
  before a := by
    change (Stmt.declaredIn (marshal a).before).map Prod.snd = _
    obtain ⟨name, type, notNull, binding, kind, isSensitive⟩ := a
    cases binding <;> cases type <;> cases notNull <;> rfl
  after a := by
    change Stmt.declaredIn (marshal a).after = []
    obtain ⟨name, type, notNull, binding, kind, isSensitive⟩ := a
    cases binding <;> cases type <;> cases notNull <;> rfl
  notes := rfl

/-- The names that entry points declare besides those of arguments. -/
def fixedNames : List String :=
  ["env", "thiz", "__db", "rc", "_result_set_", "result_set", "row", "info"]

theorem ownNames_subset (p : Procedure) : ownNames p ⊆ fixedNames := by
  rw [ownNames, NativeStyle.ownNames]
  cases p.usesDatabase <;> cases p.hasProjection <;> cases ReturnRow.isEmpty p <;>
    simp [style, fixedNames]

theorem nodup_ownNames (p : Procedure) : (ownNames p).Nodup := by
  rw [ownNames, NativeStyle.ownNames]
  cases p.usesDatabase <;> cases p.hasProjection <;> cases ReturnRow.isEmpty p <;>
    simp [style]

/-- An entry point declares each name once exactly where the names of its arguments keep
clear. -/
theorem nodup_declaredNames_iff (o : Options) {p : Procedure}
    (hargs : (p.args.map (·.name)).Nodup) :
    (entryPoint o p).declaredNames.Nodup ↔ KeepClear p := by
  have hins : (p.inArgs.map (·.name)).Nodup :=
    List.Sublist.nodup (List.filter_sublist.map _) hargs
  have hparams : (entryPoint o p).params.map (·.name) =
      ["env", "thiz"] ++ (if p.usesDatabase then ["__db"] else []) ++ p.inArgs.map (·.name) := by
    change (contextParams ++ params p).map (·.name) = _
    rw [params, List.map_append, List.map_append, List.map_map, List.append_assoc]
    cases p.usesDatabase <;> rfl
  have hheld : ∀ x ∈ ["env", "thiz"] ++ style.ownNames p, ∀ a, x ∉ holders a := by
    have hfixed : ∀ x ∈ fixedNames, ∀ pre ∈ ["str_ref_", "blob_ref_", "n_"],
        ¬ pre.toList <+: x.toList := by decide
    exact fun x hx a => not_mem_holders (hfixed x (ownNames_subset p hx))
  rw [declaresHolders.nodup_declaredNames_iff rfl hparams hargs (nodup_ownNames p) hheld]
  simp only [hins, true_and, List.forall_mem_map]
  exact ⟨fun h => ⟨h.1, h.2⟩, fun h => ⟨h.own, h.held⟩⟩

end JavaNative

/-! ## All functions -/

/-- Where arguments have distinct names, each of the three functions for a procedure declares
each name once exactly where the names of the arguments keep clear of what it declares besides. -/
theorem declaresNamesOnce_iff (v : Verbosity) (name : String) (c : CSharpNative.Options)
    (j : JavaNative.Options) {p : Procedure} (hargs : (p.args.map (·.name)).Nodup) :
    ((SqliteWrapper.function v name p).declaredNames.Nodup ↔
        ∀ a ∈ p.args, a.name ∉ SqliteWrapper.ownVariables p) ∧
      ((CSharpNative.entryPoint c p).declaredNames.Nodup ↔ CSharpNative.KeepClear p) ∧
      ((JavaNative.entryPoint j p).declaredNames.Nodup ↔ JavaNative.KeepClear p) :=
  ⟨SqliteWrapper.nodup_declaredNames_iff v name hargs, CSharpNative.nodup_declaredNames_iff c hargs,
    JavaNative.nodup_declaredNames_iff j hargs⟩

theorem declaresNamesOnce_transfer :
    (CallingFile.transfer.args.map (·.name)).Nodup ∧
      (SqliteWrapper.function .quiet "transfer" CallingFile.transfer).declaredNames.Nodup ∧
      (CSharpNative.entryPoint ⟨"Bank", "bank.h"⟩ CallingFile.transfer).declaredNames.Nodup ∧
      (JavaNative.entryPoint ⟨"com.bank", "Bank", "com_bank.h", "bank.h"⟩
        CallingFile.transfer).declaredNames.Nodup := by
  have hargs : (CallingFile.transfer.args.map (·.name)).Nodup := by decide
  obtain ⟨hsqlite, hcsharp, hjava⟩ := declaresNamesOnce_iff .quiet "transfer" ⟨"Bank", "bank.h"⟩
    ⟨"com.bank", "Bank", "com_bank.h", "bank.h"⟩ hargs
  refine ⟨hargs, hsqlite.2 (by decide), hcsharp.2 ?_, hjava.2 ?_⟩
  · constructor <;> decide
  · constructor <;> decide

/-- A text is a letter or an underscore followed by letters, digits and underscores. -/
def isIdentifier (s : String) : Bool :=
  match s.toList with
  | [] => false
  | c :: cs => (c.isAlpha || c == '_') && cs.all fun d => d.isAlphanum || d == '_'

/-- A procedure with an argument that is called like the result code. -/
def coded : Procedure :=
  ⟨"coded", [⟨"rc", .integer, true, .inOnly, none, false⟩], none, [], some true, false⟩

/-- A procedure with arguments that are called like parts of another. -/
def parted : Procedure :=
  ⟨"parted", [⟨"x", .integer, false, .inOnly, none, false⟩,
      ⟨"x_value", .integer, true, .inOnly, none, false⟩,
      ⟨"n_x", .integer, true, .inOnly, none, false⟩],
    none, [], some false, false⟩

theorem not_nodup_declaredNames :
    ((coded.args.map (·.name)).Nodup ∧ (∀ a ∈ coded.args, isIdentifier a.name) ∧
      ¬ (SqliteWrapper.function .quiet "coded" coded).declaredNames.Nodup ∧
      ¬ (CSharpNative.entryPoint ⟨"Names", "names.h"⟩ coded).declaredNames.Nodup ∧
      ¬ (JavaNative.entryPoint ⟨"com.names", "Names", "com_names.h", "names.h"⟩
        coded).declaredNames.Nodup) ∧
    (parted.args.map (·.name)).Nodup ∧ (∀ a ∈ parted.args, isIdentifier a.name) ∧
      ¬ (CSharpNative.entryPoint ⟨"Names", "names.h"⟩ parted).declaredNames.Nodup ∧
      ¬ (JavaNative.entryPoint ⟨"com.names", "Names", "com_names.h", "names.h"⟩
        parted).declaredNames.Nodup := by
  refine ⟨⟨by decide, by decide, ?_, ?_, ?_⟩, by decide, by decide, ?_, ?_⟩ <;> decide

end CqlGlue
