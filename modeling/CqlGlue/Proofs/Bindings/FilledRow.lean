import CqlGlue.Proofs.Bindings.Names
import CqlGlue.Proofs.Code.Writes
import CqlGlue.Proofs.ReturnRow.Columns
import CqlGlue.Proofs.Sqlite.WrapperRuns

/-!
# Filling the return row

What a managed caller reads was put into the row before the row became a result set: by the
procedure, through the address of a member, for an argument that is only written; by a copy behind
the call for one that is read and written; and by the entry point for the result code and the
result set. Whatever the conditions of a run come to, each member is written once, and a reference
is copied before it is released.

## Main definitions
* `Delivers` says how an argument gets into the row, `FillsRow` that each member is written once.
* `NativeStyle.Conveys` is what a managed language has to do with an argument.

## Main statements
* `NativeStyle.handsOverRow` is the part that the languages share.
* `CSharpNative.conveys` and `JavaNative.conveys`: the two languages.
-/

namespace CqlGlue

open Code SqliteWrapper

/-! ## What has to happen -/

/-- A statement copies a variable into a member of the row. -/
inductive Copies (field source : String) : Stmt → Prop
  | value : Copies field source (.assign (.member "row" field) (.name source))
  | reference {setter : String} (h : setter ∈ ["cql_set_string_ref", "cql_set_blob_ref"]) :
    Copies field source
      (.perform (.call setter [.address (.member "row" field), .name source]))

/-- An argument gets into the row as its direction asks, given what it needs, what is passed for
it, and the steps before and after the call. -/
inductive Delivers (needs : Marshalled) (before after : List Step) (a : Argument)
    (passed : CallArg) : Prop
  /-- What only comes in writes no member, in the call or around it. -/
  | inOnly (hbinding : a.binding = .inOnly) (hpassed : passed.writes "row" = [])
    (hbefore : writes "row" (needs.before.flatMap Stmt.possible) = [])
    (hafter : writes "row" (needs.after.map .done) = [])
  /-- What is only written is a member whose address is passed. -/
  | outOnly (hbinding : a.binding = .outOnly) (haddress : passed.byAddress = true)
    (hoperand : passed.operand = .value (.member "row" a.name))
  /-- What is read and written is copied from the variable whose address is passed. A reference
  is released, but not before that. -/
  | inOut (hbinding : a.binding = .inOut) (haddress : passed.byAddress = true) {source : String}
    (hoperand : passed.operand = .value (.name source)) {early late : List Step} {copy : Stmt}
    (hafter : after = early ++ .done copy :: late) (hcopies : Copies a.name source copy)
    (hkept : a.type.isRef = true → ∀ f, (f, source) ∉ releases (before ++ early))
    (hreleased : a.type.isRef = true → ∃ f, (f, source) ∈ releases late)

/-- The steps before and after a call fill the row of a procedure. -/
structure FillsRow (style : NativeStyle) (p : Procedure) (before : List Step) (c : ProcCall)
    (after : List Step) : Prop where
  /-- Each member is written once. -/
  once : ∀ m ∈ ReturnRow.members p,
    (writes "row" (before ++ .done (.call c) :: after)).count m.name = 1
  /-- Nothing else of the row is written. -/
  only : ∀ x ∈ writes "row" (before ++ .done (.call c) :: after),
    ∃ m ∈ ReturnRow.members p, m.name = x
  /-- The arguments get where they belong. -/
  delivered : List.Forall₂ (fun a passed => Delivers (style.marshal a) before after a passed)
    p.args c.args
  /-- The code that the call gives back is the code of the row. -/
  code : p.usesDatabase = true → c.keepsCode = true ∧
    .done (.assign (.member "row" "__rc") (.name "rc")) ∈ after
  /-- The result set that the call gives back is that of the row, in both forms. -/
  resultSet : p.hasProjection = true → ∃ source, .address (.name source) ∈ c.leading ∧
    ∀ m ∈ ["__result", "__result_long"], ∃ type,
      .done (.assign (.member "row" m) (.cast type (.name source))) ∈ after

namespace NativeStyle

/-- The row becomes a result set. -/
def handOver (style : NativeStyle) : Stmt :=
  .perform (.call "cql_one_row_result"
    [.address (.name "info"), .cast "char *" (.name "row"), .name "1",
      .address (.name style.outputs)])

/-- The runs of an entry point call the procedure once, fill the row around the call, and then
hand it over, where there is one. -/
def HandsOverRow (style : NativeStyle) (p : Procedure) (f : Function) : Prop :=
  ∀ holds : Outcomes, ∃ before after, (f.run holds).steps =
      before ++ .done (.call (style.call p)) :: after ++
        (if ReturnRow.isEmpty p then [] else [.done style.handOver]) ∧
    FillsRow style p before (style.call p) after

/-- What a managed language has to do with an argument. -/
structure Conveys (style : NativeStyle) (a : Argument) : Prop where
  straight : ∀ s ∈ (style.marshal a).before, s.isStraight = true
  plain : ∀ s ∈ (style.marshal a).after, s.isPlain = true
  /-- Before the call no member is written. -/
  before : writes "row" ((style.marshal a).before.flatMap Stmt.possible) = []
  passed : (style.marshal a).passed.writes "row" =
    if a.binding == .outOnly then [a.name] else []
  after : writes "row" ((style.marshal a).after.map .done) =
    if a.binding == .inOut then [a.name] else []
  outOnly : a.binding = .outOnly → (style.marshal a).passed.byAddress = true ∧
    (style.marshal a).passed.operand = .value (.member "row" a.name)
  /-- What is copied is copied first of all, and a reference is held by a variable that is then
  released. -/
  inOut : a.binding = .inOut → (style.marshal a).passed.byAddress = true ∧
    ∃ source copy rest, (style.marshal a).passed.operand = .value (.name source) ∧
      (style.marshal a).after = copy :: rest ∧ Copies a.name source copy ∧
      (a.type.isRef = true → source ∈ holders a ∧ ∃ f, (f, source) ∈ releases (rest.map .done))
  /-- Before the call nothing is released, after it only what holds the argument. -/
  kept : releases ((style.marshal a).before.flatMap Stmt.possible) = []
  released : ∀ f x, (f, x) ∈ releases ((style.marshal a).after.map .done) → x ∈ holders a

/-! ## Runs of entry points -/

variable {style : NativeStyle} {p : Procedure} {f : Function}

/-- What an entry point puts into the row besides arguments. -/
def filling (style : NativeStyle) (p : Procedure) : List Stmt :=
  if ReturnRow.isEmpty p then []
  else
    (if p.usesDatabase then [Stmt.assign (.member "row" "__rc") (.name "rc")] else []) ++
    (if p.hasProjection then
      [Stmt.note style.takeover,
        .assign (.member "row" "__result") (.cast "cql_result_set_ref" (.name style.resultSet)),
        .assign (.member "row" "__result_long") (.cast "int64_t" (.name style.resultSet))]
    else []) ++
    [.blank, ReturnRow.fetchInfo p style.encodesContext]

theorem handover_eq (style : NativeStyle) (p : Procedure) :
    style.handover p = style.filling p ++
      if ReturnRow.isEmpty p then []
      else [style.handOver, .leave (some (.cast style.handle (.name style.outputs)))] := by
  rw [handover, filling]
  cases ReturnRow.isEmpty p
  · simp [handOver]
  · rfl

/-- A row that gives something back is not empty. -/
theorem isEmpty_false_of_usesDatabase (h : p.usesDatabase = true) :
    ReturnRow.isEmpty p = false := by
  simp [ReturnRow.isEmpty, ReturnRow.fieldCount, h]

theorem isEmpty_false_of_hasProjection (h : p.hasProjection = true) :
    ReturnRow.isEmpty p = false := by
  simp [ReturnRow.isEmpty, ReturnRow.fieldCount, h]

theorem isPlain_filling (style : NativeStyle) (p : Procedure) :
    ∀ s ∈ style.filling p, s.isPlain = true := by
  rw [filling]
  cases ReturnRow.isEmpty p <;> cases p.usesDatabase <;> cases p.hasProjection <;>
    simp [Stmt.isPlain, ReturnRow.fetchInfo]

theorem writes_filling (style : NativeStyle) (p : Procedure) :
    writes "row" ((style.filling p).map .done) =
      (if p.usesDatabase then ["__rc"] else []) ++
        if p.hasProjection then ["__result", "__result_long"] else [] := by
  rw [writes_map_done, filling]
  cases he : ReturnRow.isEmpty p with
  | false => cases p.usesDatabase <;> cases p.hasProjection <;> rfl
  | true =>
    have hdatabase : p.usesDatabase = false := by
      cases hd : p.usesDatabase with
      | false => rfl
      | true => rw [isEmpty_false_of_usesDatabase hd] at he; cases he
    have hprojection : p.hasProjection = false := by
      cases hp : p.hasProjection with
      | false => rfl
      | true => rw [isEmpty_false_of_hasProjection hp] at he; cases he
    rw [hdatabase, hprojection]
    rfl

/-- A run of an entry point: possible steps before the call, then the statements behind it. -/
theorem exists_run_body (holds : Outcomes) (hbody : f.body = style.body p)
    (hnotes : ∀ s ∈ style.notes, ∃ text, s = .note text)
    (h : ∀ a ∈ p.args, style.Conveys a) :
    ∃ before ⊆ (style.preparation p).flatMap Stmt.possible,
      (f.run holds).steps = before ++ Step.done (.call (style.call p)) ::
        (Stmt.setOff (p.args.flatMap fun a => (style.marshal a).after) ++ style.filling p).map
          .done ++ if ReturnRow.isEmpty p then [] else [Step.done style.handOver] := by
  have hstraight : ∀ s ∈ style.preparation p, s.isStraight = true := by
    simp only [preparation, List.forall_mem_append]
    refine ⟨⟨?_, fun s hs => ?_⟩, fun s hs => ?_⟩
    · rw [locals]
      cases p.usesDatabase <;> cases p.hasProjection <;> cases ReturnRow.isEmpty p <;>
        simp [Stmt.isStraight, Stmt.isPlain, Stmt.define, Stmt.definePointer]
    · obtain ⟨text, rfl⟩ := hnotes s hs
      rfl
    · obtain hs | rfl := Stmt.mem_setOff hs
      · obtain ⟨a, ha, hs⟩ := List.mem_flatMap.1 hs
        exact (h a ha).straight s hs
      · rfl
  have hplain : ∀ s ∈ Stmt.setOff (p.args.flatMap fun a => (style.marshal a).after) ++
      style.filling p, s.isPlain = true :=
    List.forall_mem_append.2 ⟨Stmt.isPlain_setOff (List.forall_mem_flatMap.2 fun a ha =>
      (h a ha).plain), isPlain_filling style p⟩
  obtain ⟨before, hsub, hrun⟩ := Stmt.exists_runAll_straight holds hstraight []
  refine ⟨before, hsub, ?_⟩
  have hcompletion : style.completion p =
      Stmt.setOff (p.args.flatMap fun a => (style.marshal a).after) ++ style.filling p ++
        if ReturnRow.isEmpty p then []
        else [style.handOver, .leave (some (.cast style.handle (.name style.outputs)))] := by
    rw [completion, handover_eq, List.append_assoc]
  rw [Function.run, hbody, body_eq, Stmt.runAll_append, hrun, Stmt.runAll_cons,
    Stmt.run_plain rfl, hcompletion, Stmt.runAll_append, Stmt.runAll_plain hplain]
  cases ReturnRow.isEmpty p with
  | true => simp
  | false =>
    rw [if_neg Bool.false_ne_true, Stmt.runAll_cons, Stmt.run_plain rfl, Stmt.runAll_cons,
      Stmt.run_leave, Stmt.runAll_nil]
    simp

/-! ## Writes of entry points -/

/-- Steps write nothing of the row and release nothing where none of them does. -/
theorem idle_iff {steps : List Step} : writes "row" steps = [] ∧ releases steps = [] ↔
    ∀ x ∈ steps, x.places.filterMap (Expr.fieldOf? "row") = [] ∧ released? x = none := by
  rw [writes, releases, List.filterMap_flatMap, List.flatMap_eq_nil_iff,
    List.filterMap_eq_nil_iff]
  exact ⟨fun h x hx => ⟨h.1 x hx, h.2 x hx⟩,
    fun h => ⟨fun x hx => (h x hx).1, fun x hx => (h x hx).2⟩⟩

/-- Before the call an entry point writes nothing of the row and releases nothing. -/
theorem idle_preparation (hnotes : ∀ s ∈ style.notes, ∃ text, s = .note text)
    (h : ∀ a ∈ p.args, style.Conveys a) :
    writes "row" ((style.preparation p).flatMap Stmt.possible) = [] ∧
      releases ((style.preparation p).flatMap Stmt.possible) = [] := by
  have hlocals : writes "row" ((style.locals p).flatMap Stmt.possible) = [] ∧
      releases ((style.locals p).flatMap Stmt.possible) = [] := by
    rw [locals]
    cases p.usesDatabase <;> cases p.hasProjection <;> cases ReturnRow.isEmpty p <;>
      exact ⟨rfl, rfl⟩
  rw [idle_iff, List.forall_mem_flatMap, preparation, List.forall_mem_append,
    List.forall_mem_append]
  refine ⟨⟨List.forall_mem_flatMap.1 (idle_iff.1 hlocals), fun s hs x hx => ?_⟩,
    fun s hs x hx => ?_⟩
  · obtain ⟨text, rfl⟩ := hnotes s hs
    obtain rfl := List.mem_singleton.1 hx
    exact ⟨rfl, rfl⟩
  · obtain hs | rfl := Stmt.mem_setOff hs
    · obtain ⟨a, ha, hs⟩ := List.mem_flatMap.1 hs
      exact idle_iff.1 ⟨(h a ha).before, (h a ha).kept⟩ x (List.mem_flatMap.2 ⟨s, hs, hx⟩)
    · obtain rfl := List.mem_singleton.1 hx
      exact ⟨rfl, rfl⟩

/-- The call writes what is only written. -/
theorem writes_call (h : ∀ a ∈ p.args, style.Conveys a) :
    (Stmt.call (style.call p)).writes "row" =
      p.args.flatMap fun a => if a.binding == .outOnly then [a.name] else [] := by
  have hleading : ∀ e ∈ style.leading p, e.addressed.filterMap (Expr.fieldOf? "row") = [] := by
    rw [leading]
    cases p.usesDatabase <;> cases p.hasProjection <;> simp [Expr.addressed, Expr.fieldOf?]
  rw [Code.writes_call _ hleading]
  change (p.args.map fun a => (style.marshal a).passed).flatMap _ = _
  rw [List.flatMap_map]
  exact List.flatMap_congr fun a ha => (h a ha).passed

/-- Behind the call an entry point writes what was read too, the code and the result set. -/
theorem writes_completion (h : ∀ a ∈ p.args, style.Conveys a) :
    writes "row" ((Stmt.setOff (p.args.flatMap fun a => (style.marshal a).after) ++
      style.filling p).map .done) =
      (p.args.flatMap fun a => if a.binding == .inOut then [a.name] else []) ++
        ((if p.usesDatabase then ["__rc"] else []) ++
          if p.hasProjection then ["__result", "__result_long"] else []) := by
  rw [List.map_append, writes_append, writes_filling, writes_map_done, flatMap_writes_setOff,
    List.flatMap_assoc]
  congr 1
  refine List.flatMap_congr fun a ha => ?_
  rw [← writes_map_done, (h a ha).after]

/-- An entry point writes the members of its row, each as often as there are members of its
name. -/
theorem writes_perm (h : ∀ a ∈ p.args, style.Conveys a) :
    (writes "row" (.done (.call (style.call p)) ::
      (Stmt.setOff (p.args.flatMap fun a => (style.marshal a).after) ++ style.filling p).map
        .done)).Perm (ReturnRow.offsets p) := by
  have houtputs : ∀ a : Argument, ((if a.binding == .outOnly then [a.name] else []) ++
      if a.binding == .inOut then [a.name] else []) =
        if a.binding.isOutput then [a.name] else [] := by
    intro a
    cases a.binding <;> rfl
  have hargs : ((p.args.flatMap fun a => if a.binding == .outOnly then [a.name] else []) ++
      p.args.flatMap fun a => if a.binding == .inOut then [a.name] else []).Perm
        (p.outArgs.map (·.name)) := by
    refine (List.flatMap_append_perm ..).trans ?_
    simp only [houtputs]
    rw [flatMap_ite (fun a : Argument => a.binding.isOutput) (fun a => [a.name]),
      ← List.map_eq_flatMap]
    rfl
  have hown : ((if p.usesDatabase then ["__rc"] else []) ++
      if p.hasProjection then ["__result", "__result_long"] else []).Perm
        (ReturnRow.ownMembers p) := by
    rw [ReturnRow.ownMembers]
    cases p.hasProjection with
    | false => rfl
    | true => exact (List.Perm.swap ..).append_left _
  rw [writes_done, writes_call h, writes_completion h, ← List.append_assoc,
    ReturnRow.offsets_eq]
  exact hargs.append hown

/-! ## Arguments -/

/-- What arguments release behind the call holds one of them. -/
theorem exists_holders_of_releases {args : List Argument} (h : ∀ a ∈ args, style.Conveys a)
    {f x : String}
    (hmem : (f, x) ∈ releases ((args.flatMap fun a => (style.marshal a).after).map .done)) :
    ∃ a ∈ args, x ∈ holders a := by
  obtain ⟨step, hstep, hreleased⟩ := List.mem_filterMap.1 hmem
  obtain ⟨s, hs, rfl⟩ := List.mem_map.1 hstep
  obtain ⟨a, ha, hs⟩ := List.mem_flatMap.1 hs
  exact ⟨a, ha, (h a ha).released f x (List.mem_filterMap.2 ⟨_, List.mem_map_of_mem hs, hreleased⟩)⟩

/-- Each argument gets into the row, whatever steps are made before the call and after what the
arguments need. -/
theorem delivers (hargs : (p.args.map (·.name)).Nodup) (h : ∀ a ∈ p.args, style.Conveys a)
    {before late : List Step} (hbefore : releases before = []) {a : Argument} (ha : a ∈ p.args) :
    Delivers (style.marshal a) before
      ((p.args.flatMap fun b => (style.marshal b).after).map .done ++ late) a
      (style.marshal a).passed := by
  have hconveys := h a ha
  cases hb : a.binding with
  | inOnly =>
    refine .inOnly hb ?_ hconveys.before ?_
    · simpa [hb] using hconveys.passed
    · simpa [hb] using hconveys.after
  | outOnly => exact .outOnly hb (hconveys.outOnly hb).1 (hconveys.outOnly hb).2
  | inOut =>
    obtain ⟨haddress, source, copy, rest, hoperand, hafter, hcopies, hrefers⟩ := hconveys.inOut hb
    obtain ⟨front, back, hsplit⟩ := List.append_of_mem ha
    have hsteps : (p.args.flatMap fun b => (style.marshal b).after).map Step.done ++ late =
        (front.flatMap fun b => (style.marshal b).after).map .done ++ Step.done copy ::
          (rest.map .done ++
            ((back.flatMap fun b => (style.marshal b).after).map .done ++ late)) := by
      simp [hsplit, hafter]
    refine .inOut hb haddress hoperand hsteps hcopies ?_ ?_
    · -- what is released before the copy holds arguments of other names
      intro href f hmem
      rw [releases, List.filterMap_append, List.mem_append, ← releases, ← releases, hbefore] at hmem
      obtain hmem | hmem := hmem
      · exact List.not_mem_nil hmem
      · have hfront : ∀ b ∈ front, style.Conveys b := fun b hb =>
          h b (hsplit ▸ List.mem_append_left _ hb)
        obtain ⟨b, hbmem, hheld⟩ := exists_holders_of_releases hfront hmem
        have hname := name_eq_of_holders hheld (hrefers href).1
        rw [hsplit, List.map_append, List.nodup_append] at hargs
        exact hargs.2.2 _ (List.mem_map_of_mem hbmem) _ (List.mem_map_of_mem List.mem_cons_self)
          hname
    · intro href
      obtain ⟨f, hf⟩ := (hrefers href).2
      refine ⟨f, ?_⟩
      rw [releases, List.filterMap_append]
      exact List.mem_append_left _ hf

variable (style) in
/-- An entry point fills the row and hands it over if its language conveys each argument and the
members have distinct names. -/
theorem handsOverRow (hbody : f.body = style.body p) (hargs : (p.args.map (·.name)).Nodup)
    (hown : ∀ a ∈ p.outArgs, a.name ∉ ReturnRow.ownMembers p)
    (hnotes : ∀ s ∈ style.notes, ∃ text, s = .note text) (h : ∀ a ∈ p.args, style.Conveys a) :
    style.HandsOverRow p f := by
  intro holds
  have hnames : (ReturnRow.offsets p).Nodup :=
    ReturnRow.nodup_offsets_iff.2 ⟨List.Sublist.nodup (List.filter_sublist.map _) hargs, hown⟩
  have hmembers : ((ReturnRow.members p).map ReturnRow.Member.name).Perm (ReturnRow.offsets p) :=
    ReturnRow.map_name_declaredMembers p ▸ (ReturnRow.members_perm p).map _
  obtain ⟨before, hsub, hrun⟩ := exists_run_body holds hbody hnotes h
  obtain ⟨hbefore, hreleases⟩ := idle_iff.2 fun x hx =>
    idle_iff.1 (idle_preparation hnotes h) x (hsub hx)
  have hperm := writes_perm h
  obtain ⟨late, hlate⟩ : ∃ late, Stmt.setOff (p.args.flatMap fun a => (style.marshal a).after) =
      (p.args.flatMap fun a => (style.marshal a).after) ++ late := by
    cases p.args.flatMap fun a => (style.marshal a).after with
    | nil => exact ⟨[], rfl⟩
    | cons s ss => exact ⟨[.blank], rfl⟩
  refine ⟨before, _, hrun, ?_⟩
  constructor
  · intro m hm
    have hmem : m.name ∈ ReturnRow.offsets p := hmembers.mem_iff.1 (List.mem_map_of_mem hm)
    rw [writes_append, hbefore, List.nil_append, hperm.count_eq]
    exact List.count_eq_one_of_mem hnames hmem
  · intro x hx
    rw [writes_append, hbefore, List.nil_append, hperm.mem_iff, ← hmembers.mem_iff] at hx
    exact List.mem_map.1 hx
  · change List.Forall₂ _ p.args (p.args.map fun a => (style.marshal a).passed)
    rw [List.forall₂_map_right_iff, hlate, List.append_assoc, List.map_append]
    exact List.forall₂_same.2 fun a ha =>
      delivers hargs h hreleases ha
  · intro hdatabase
    refine ⟨hdatabase, List.mem_map_of_mem (List.mem_append_right _ ?_)⟩
    simp [filling, isEmpty_false_of_usesDatabase hdatabase, hdatabase]
  · intro hprojection
    have hrow := isEmpty_false_of_hasProjection hprojection
    refine ⟨style.resultSet, ?_, ?_⟩
    · change _ ∈ style.leading p
      simp [leading, hprojection]
    · simp only [List.forall_mem_cons]
      refine ⟨⟨"cql_result_set_ref", ?_⟩, ⟨"int64_t", ?_⟩, by simp⟩ <;>
        exact List.mem_map_of_mem (List.mem_append_right _ (by simp [filling, hrow, hprojection]))

end NativeStyle

/-! ## The languages -/

namespace CSharpNative

/-- An argument is conveyed unless it is an object that is read and written. -/
theorem conveys {a : Argument} (hobject : a.binding = .inOut → a.type ≠ .object) :
    style.Conveys a := by
  obtain ⟨x, type, notNull, binding, kind, sensitive⟩ := a
  constructor
  case straight =>
    apply List.all_eq_true.1
    cases binding <;> cases type <;> cases notNull <;> rfl
  case plain =>
    apply List.all_eq_true.1
    cases binding <;> cases type <;> cases notNull <;> rfl
  case before => cases binding <;> cases type <;> cases notNull <;> rfl
  case passed => cases binding <;> cases type <;> cases notNull <;> rfl
  case after =>
    cases binding <;> cases type <;> cases notNull <;> first | rfl | exact absurd rfl (hobject rfl)
  case outOnly =>
    rintro rfl
    exact ⟨rfl, rfl⟩
  case inOut =>
    rintro rfl
    cases type with
    | object => exact absurd rfl (hobject rfl)
    | text =>
      exact ⟨rfl, "str_ref_" ++ x, _, _, rfl, rfl, .reference (by decide), fun _ =>
        ⟨List.mem_singleton_self _, "cql_string_release", List.mem_singleton_self _⟩⟩
    | blob =>
      exact ⟨rfl, "blob_ref_" ++ x, _, _, rfl, rfl, .reference (by decide), fun _ =>
        ⟨List.mem_singleton_self _, "cql_blob_release", List.mem_singleton_self _⟩⟩
    | bool | integer | long | real =>
      cases notNull with
      | true => exact ⟨rfl, x, _, _, rfl, rfl, .value, nofun⟩
      | false => exact ⟨rfl, "n_" ++ x, _, _, rfl, rfl, .value, nofun⟩
  case kept => cases binding <;> cases type <;> cases notNull <;> rfl
  case released =>
    intro f y h
    cases binding <;> cases type <;> cases notNull <;>
      first
      | exact absurd h List.not_mem_nil
      | (cases List.mem_singleton.1 h; exact List.mem_singleton_self _)

theorem handsOverRow (o : Options) {p : Procedure} (hargs : (p.args.map (·.name)).Nodup)
    (hown : ∀ a ∈ p.outArgs, a.name ∉ ReturnRow.ownMembers p)
    (hobject : ∀ a ∈ p.args, a.binding = .inOut → a.type ≠ .object) :
    style.HandsOverRow p (entryPoint o p) :=
  style.handsOverRow rfl hargs hown (List.forall_mem_nil _) fun a ha => conveys (hobject a ha)

end CSharpNative

namespace JavaNative

/-- An argument is conveyed unless it is read and written. -/
theorem conveys {a : Argument} (hbinding : a.binding ≠ .inOut) : style.Conveys a := by
  obtain ⟨x, type, notNull, binding, kind, sensitive⟩ := a
  constructor
  case straight =>
    apply List.all_eq_true.1
    cases binding <;> cases type <;> cases notNull <;> rfl
  case plain =>
    apply List.all_eq_true.1
    cases binding <;> cases type <;> cases notNull <;> rfl
  case before => cases binding <;> cases type <;> cases notNull <;> rfl
  case passed => cases binding <;> cases type <;> cases notNull <;> rfl
  case after =>
    cases binding <;> cases type <;> cases notNull <;> first | rfl | exact absurd rfl hbinding
  case outOnly =>
    rintro rfl
    exact ⟨rfl, rfl⟩
  case inOut => exact fun h => absurd h hbinding
  case kept => cases binding <;> cases type <;> cases notNull <;> rfl
  case released =>
    intro f y h
    cases binding <;> cases type <;> cases notNull <;>
      first
      | exact absurd h List.not_mem_nil
      | (cases List.mem_singleton.1 h; exact List.mem_singleton_self _)

theorem handsOverRow (o : Options) {p : Procedure} (hargs : (p.args.map (·.name)).Nodup)
    (hown : ∀ a ∈ p.outArgs, a.name ∉ ReturnRow.ownMembers p)
    (hbinding : ∀ a ∈ p.args, a.binding ≠ .inOut) : style.HandsOverRow p (entryPoint o p) :=
  style.handsOverRow rfl hargs hown (List.forall_mem_singleton.2 ⟨_, rfl⟩)
    fun a ha => conveys (hbinding a ha)

end JavaNative

end CqlGlue
