import CqlGlue.Proofs.Sqlite.Declarations
import CqlGlue.Proofs.Sqlite.Registered
import CqlGlue.Proofs.Sqlite.WrapperRuns
import CqlGlue.Proofs.Table

/-!
# References in wrappers

A wrapper of a procedure holds references: those it made of the values of SQL and those that the
procedure wrote back. References that only the call needed are released right after it, the
others at the end, unless they are null. A call with wrong arguments leaves before there is any
reference; every other one, whether the procedure fails or not, comes to the end.

## Main definitions
* `IsSettled` says what has become of an argument in the end.
* `IsBalanced` says of a run that every reference is released once.

## Main statements
* `isBalanced_run`: all runs of a wrapper are balanced.
* `SqliteExtension.wrapper_isBalanced` is about the wrappers of a file.
-/

namespace CqlGlue.SqliteWrapper

open Code

/-- What has become of an argument: a value is not released; a reference that only the call
needed is released once, by the function of its type; so is one that was written back, where the
only test of it finds that it is not null. -/
inductive IsSettled (a : Argument) (steps : List Step) : Prop where
  | value (htype : a.type.isRef = false)
      (hreleases : (releases steps).filter (·.2 == a.name) = [])
  | input (htype : a.type.isRef = true) (hbinding : a.binding = .inOnly)
      (htests : (nullTests steps).filter (·.1 == a.name) = [])
      (hreleases : (releases steps).filter (·.2 == a.name) = [(releaser a.type, a.name)])
  | output (htype : a.type.isRef = true) (hbinding : a.binding ≠ .inOnly) (present : Bool)
      (htests : (nullTests steps).filter (·.1 == a.name) = [(a.name, present)])
      (hreleases : (releases steps).filter (·.2 == a.name) =
        if present then [(releaser a.type, a.name)] else [])

/-- A run with wrong arguments releases nothing. Any other run calls the procedure, releases
nothing before, and settles all arguments. No run makes a variable the result after it has
released it. -/
structure IsBalanced (p : Procedure) (r : Run) : Prop where
  refused : Refuses p r.steps → r.control = .returned ∧ releases r.steps = []
  accepted : ¬ Refuses p r.steps → r.control = .onward ∧
    (∃ before after, r.steps = before ++ Step.done (.call (call p)) :: after ∧
      releases before = []) ∧ ∀ a ∈ p.args, IsSettled a r.steps
  answers : r.steps.Pairwise fun x y =>
    ∀ f name, released? x = some (f, name) → answered? y ≠ some name

variable {p : Procedure}

/-! ## What becomes of the arguments -/

/-- The function by which an argument is released, and its variable. -/
def freed (a : Argument) : String × String := (releaser a.type, a.name)

theorem released?_releaseStmt (a : Argument) :
    released? (.done (releaseStmt a)) = some (freed a) := by
  have hmem : releaser a.type ∈ releasers := by cases a.type <;> decide
  rw [releaseStmt, released?, if_pos hmem, freed]

theorem IsAnswer.released? {x : Step} (h : IsAnswer p x) : released? x = none := by
  cases h with
  | aside h => exact h.released
  | code failed => rfl
  | null => decide
  | scalar h => rfl

theorem IsAnswer.nullTest? {x : Step} (h : IsAnswer p x) : nullTest? x = none := by
  cases h with
  | aside h => exact h.tested
  | code failed => rfl
  | null => rfl
  | scalar h => rfl

theorem releases_eq_nil {steps : List Step} (h : ∀ x ∈ steps, released? x = none) :
    releases steps = [] := List.filterMap_eq_nil_iff.2 h

theorem nullTests_eq_nil {steps : List Step} (h : ∀ x ∈ steps, nullTest? x = none) :
    nullTests steps = [] := List.filterMap_eq_nil_iff.2 h

theorem releases_append (xs ys : List Step) : releases (xs ++ ys) = releases xs ++ releases ys :=
  List.filterMap_append

theorem nullTests_append (xs ys : List Step) :
    nullTests (xs ++ ys) = nullTests xs ++ nullTests ys := List.filterMap_append

theorem releases_inputs (xs : List Argument) :
    releases (xs.map fun a => .done (releaseStmt a)) = xs.map freed := by
  rw [releases, List.filterMap_map, ← List.filterMap_eq_map]
  exact List.filterMap_congr fun a _ => released?_releaseStmt a

theorem releases_outputs (outcomes : List (Argument × Bool)) :
    releases (outcomes.flatMap outputSteps) = (outcomes.filter (·.2)).map fun o => freed o.1 := by
  induction outcomes with
  | nil => rfl
  | cons o outcomes ih =>
    rw [List.flatMap_cons, releases_append, ih]
    obtain ⟨a, present⟩ := o
    cases present with
    | false => rfl
    | true =>
      have hsteps : releases (outputSteps (a, true)) = [freed a] := by
        simp only [outputSteps, if_true, releases, List.filterMap_cons, released?_releaseStmt]
        rfl
      rw [hsteps, List.filter_cons_of_pos rfl, List.map_cons, List.singleton_append]

theorem nullTests_outputs (outcomes : List (Argument × Bool)) :
    nullTests (outcomes.flatMap outputSteps) = outcomes.map fun o => (o.1.name, o.2) := by
  induction outcomes with
  | nil => rfl
  | cons o outcomes ih =>
    rw [List.flatMap_cons, nullTests_append, ih, List.map_cons]
    obtain ⟨a, present⟩ := o
    cases present <;> rfl

/-- Among things that belong to distinct arguments of a procedure, those of the name of one are
its own. -/
theorem filter_named_eq_nil {β : Type} {argument : β → Argument} {ys : List β}
    (hnames : (p.args.map (·.name)).Nodup) (hsub : ys.map argument ⊆ p.args) {a : Argument}
    (ha : a ∈ p.args) (h : a ∉ ys.map argument) :
    ys.filter (fun y => (argument y).name == a.name) = [] := by
  refine List.filter_eq_nil_iff.2 fun y hy hname => h ?_
  have hmem : argument y ∈ ys.map argument := List.mem_map.2 ⟨y, hy, rfl⟩
  rwa [← List.inj_on_of_nodup_map hnames (hsub hmem) ha (eq_of_beq hname)]

theorem inputs_sublist (p : Procedure) : (inputs p).Sublist p.args := List.filter_sublist

theorem outputs_sublist (p : Procedure) : (outputs p).Sublist p.args :=
  List.filter_sublist.trans List.filter_sublist

theorem mem_outputs {a : Argument} :
    a ∈ outputs p ↔ a ∈ p.args ∧ a.type.isRef = true ∧ a.binding ≠ .inOnly := by
  have houtput : a.binding.isOutput = true ↔ a.binding ≠ .inOnly := by
    cases a.binding <;> simp [Binding.isOutput]
  simp only [outputs, Procedure.outArgs, List.mem_filter, houtput]
  tauto

theorem mem_inputs {a : Argument} :
    a ∈ inputs p ↔ a ∈ p.args ∧ a.type.isRef = true ∧ a.binding = .inOnly := by
  simp only [inputs, List.mem_filter, Bool.and_eq_true, beq_iff_eq]
  tauto

/-- Up to the exit a run releases what only the call needed. -/
theorem early_cases {before between answer : List Step} (hbefore : ∀ x ∈ before, IsAside x)
    (hbetween : ∀ x ∈ between, IsAside x) (hanswer : ∀ x ∈ answer, IsAnswer p x) :
    ∀ x ∈ early p before between answer,
      IsAnswer p x ∨ ∃ a ∈ inputs p, x = .done (releaseStmt a) := by
  simp only [early, List.forall_mem_append, List.forall_mem_cons, List.forall_mem_map]
  exact ⟨fun x hx => .inl (.aside (hbefore x hx)), .inl (.aside (isAside_of_isQuiet rfl)),
    ⟨fun x hx => .inl (.aside (hbetween x hx)), fun a ha => .inr ⟨a, ha, rfl⟩⟩,
    fun x hx => .inl (hanswer x hx)⟩

/-- Behind the exit a run releases what was written back. -/
theorem late_cases {outcomes : List (Argument × Bool)} {rest : List Step}
    (hrest : ∀ x ∈ rest, IsAside x) :
    ∀ x ∈ late outcomes rest, (∃ o, x ∈ outputSteps o) ∨ IsAside x := by
  refine List.forall_mem_append.2 ⟨fun x hx => .inl ?_, fun x hx => .inr (hrest x hx)⟩
  obtain ⟨o, -, hx⟩ := List.mem_flatMap.1 hx
  exact ⟨o, hx⟩

theorem releases_early {before between answer : List Step} (hbefore : ∀ x ∈ before, IsAside x)
    (hbetween : ∀ x ∈ between, IsAside x) (hanswer : ∀ x ∈ answer, IsAnswer p x) :
    releases (early p before between answer) = (inputs p).map freed := by
  have hcall : ∀ steps, releases (.done (.call (call p)) :: steps) = releases steps := fun _ => rfl
  simp only [early, releases_append, hcall, releases_inputs,
    releases_eq_nil fun x hx => (hbefore x hx).released,
    releases_eq_nil fun x hx => (hbetween x hx).released,
    releases_eq_nil fun x hx => (hanswer x hx).released?, List.nil_append, List.append_nil]

theorem releases_late {outcomes : List (Argument × Bool)} {rest : List Step}
    (hrest : ∀ x ∈ rest, IsAside x) :
    releases (late outcomes rest) = (outcomes.filter (·.2)).map fun o => freed o.1 := by
  rw [late, releases_append, releases_outputs, releases_eq_nil fun x hx => (hrest x hx).released,
    List.append_nil]

theorem nullTests_early {before between answer : List Step} (hbefore : ∀ x ∈ before, IsAside x)
    (hbetween : ∀ x ∈ between, IsAside x) (hanswer : ∀ x ∈ answer, IsAnswer p x) :
    nullTests (early p before between answer) = [] := by
  refine nullTests_eq_nil fun x hx => ?_
  obtain h | ⟨a, -, rfl⟩ := early_cases hbefore hbetween hanswer x hx
  · exact h.nullTest?
  · rfl

theorem nullTests_late {outcomes : List (Argument × Bool)} {rest : List Step}
    (hrest : ∀ x ∈ rest, IsAside x) :
    nullTests (late outcomes rest) = outcomes.map fun o => (o.1.name, o.2) := by
  rw [late, nullTests_append, nullTests_outputs, nullTests_eq_nil fun x hx => (hrest x hx).tested,
    List.append_nil]

/-- Each argument that was written back is tested once. -/
theorem filter_outcomes_eq_singleton {outcomes : List (Argument × Bool)}
    (hnames : (p.args.map (·.name)).Nodup) (houtcomes : outcomes.map Prod.fst = outputs p)
    {o : Argument × Bool} (ho : o ∈ outcomes) :
    outcomes.filter (·.1.name == o.1.name) = [o] := by
  have hmap : outcomes.map (·.1.name) = (outputs p).map (·.name) := by
    rw [← houtcomes, List.map_map]
    rfl
  have hdistinct : (outcomes.map (·.1.name)).Nodup :=
    hmap ▸ ((outputs_sublist p).map _).nodup hnames
  exact Table.filter_key_eq_singleton hdistinct ho

/-- What is released by a name: an argument that only goes in, and one that was written back and
is there. -/
theorem filter_releases {steps : List Step} {outcomes : List (Argument × Bool)}
    (hreleases : releases steps =
      (inputs p).map freed ++ (outcomes.filter (·.2)).map fun o => freed o.1) (name : String) :
    (releases steps).filter (·.2 == name) =
      ((inputs p).filter (·.name == name)).map freed ++
        ((outcomes.filter (·.1.name == name)).filter (·.2)).map fun o => freed o.1 := by
  rw [hreleases, List.filter_append, List.filter_map, List.filter_map, List.filter_filter,
    List.filter_filter]
  congr 3
  funext o
  exact Bool.and_comm _ _

theorem filter_nullTests {steps : List Step} {outcomes : List (Argument × Bool)}
    (htests : nullTests steps = outcomes.map fun o => (o.1.name, o.2)) (name : String) :
    (nullTests steps).filter (·.1 == name) =
      (outcomes.filter (·.1.name == name)).map fun o => (o.1.name, o.2) := by
  rw [htests, List.filter_map]
  rfl

/-- What is released and tested settles all arguments. -/
theorem isSettled {steps : List Step} {outcomes : List (Argument × Bool)}
    (hnames : (p.args.map (·.name)).Nodup) (houtcomes : outcomes.map Prod.fst = outputs p)
    (hreleases : releases steps =
      (inputs p).map freed ++ (outcomes.filter (·.2)).map fun o => freed o.1)
    (htests : nullTests steps = outcomes.map fun o => (o.1.name, o.2)) {a : Argument}
    (ha : a ∈ p.args) : IsSettled a steps := by
  have hreleased := filter_releases hreleases a.name
  have htested := filter_nullTests htests a.name
  have hinputs : a ∉ inputs p → (inputs p).filter (·.name == a.name) = [] := fun h =>
    filter_named_eq_nil hnames (by simpa using (inputs_sublist p).subset) ha (by simpa using h)
  have houtputs : a ∉ outputs p → outcomes.filter (·.1.name == a.name) = [] := fun h =>
    filter_named_eq_nil hnames (houtcomes ▸ (outputs_sublist p).subset) ha (houtcomes ▸ h)
  cases htype : a.type.isRef with
  | false =>
    refine .value htype ?_
    rw [hreleased, hinputs fun h => by simp_all [mem_inputs],
      houtputs fun h => by simp_all [mem_outputs]]
    rfl
  | true =>
    by_cases hbinding : a.binding = .inOnly
    · have hmem : a ∈ inputs p := mem_inputs.2 ⟨ha, htype, hbinding⟩
      have hnone : a ∉ outputs p := fun h => (mem_outputs.1 h).2.2 hbinding
      have hone : (inputs p).filter (·.name == a.name) = [a] :=
        Table.filter_key_eq_singleton (((inputs_sublist p).map _).nodup hnames) hmem
      refine .input htype hbinding ?_ ?_
      · rw [htested, houtputs hnone, List.map_nil]
      · rw [hreleased, hone, houtputs hnone]
        rfl
    · have hmem : a ∈ outputs p := mem_outputs.2 ⟨ha, htype, hbinding⟩
      have hnone : a ∉ inputs p := fun h => hbinding (mem_inputs.1 h).2.2
      obtain ⟨⟨b, present⟩, ho, rfl⟩ := List.mem_map.1 (houtcomes ▸ hmem)
      have hone : outcomes.filter (·.1.name == b.name) = [(b, present)] :=
        filter_outcomes_eq_singleton hnames houtcomes ho
      refine .output htype hbinding present ?_ ?_
      · rw [htested, hone]
        rfl
      · rw [hreleased, hone, hinputs hnone]
        cases present <;> rfl

/-! ## Balance -/

/-- After the checks, nothing refuses the call. -/
theorem not_mem_refusals_of_isAnswer {x : Step} (h : IsAnswer p x) {condition : Expr}
    (hc : condition ∈ refusals p) : x ≠ .tested condition true := by
  cases h with
  | aside h => exact h.fails condition
  | code failed =>
    rintro heq
    cases heq
    simp [refusals, mismatch] at hc
  | null => simp
  | scalar h => simp

theorem not_mem_refusals_of_mem_outputSteps {o : Argument × Bool} {x : Step}
    (h : x ∈ outputSteps o) {condition : Expr} (hc : condition ∈ refusals p) :
    x ≠ .tested condition true := by
  rintro rfl
  obtain ⟨a, present⟩ := o
  cases present <;> simp [outputSteps] at h
  obtain ⟨rfl, -⟩ := h
  simp [refusals, mismatch] at hc

/-- A variable that is released early belongs to an argument that only goes in, and the result to
one that comes out. -/
theorem pairwise_answers {early late : List Step} (hnames : (p.args.map (·.name)).Nodup)
    (hreleased : ∀ x ∈ early, ∀ f name, released? x = some (f, name) →
      ∃ a ∈ inputs p, a.name = name)
    (hanswered : ∀ y ∈ early, ∀ name, answered? y = some name → ∃ b ∈ p.outArgs, b.name = name)
    (hlate : ∀ y ∈ late, answered? y = none) :
    (early ++ late).Pairwise fun x y =>
      ∀ f name, released? x = some (f, name) → answered? y ≠ some name := by
  have hnone : ∀ x y, y ∈ late → ∀ f name, released? x = some (f, name) →
      answered? y ≠ some name := fun x y hy f name _ h => by
    rw [hlate y hy] at h
    cases h
  rw [List.pairwise_append]
  refine ⟨List.pairwise_of_forall_mem_list fun x hx y hy f name hx' hy' => ?_,
    List.pairwise_of_forall_mem_list fun x _ y hy => hnone x y hy, fun x _ y hy => hnone x y hy⟩
  obtain ⟨a, ha, rfl⟩ := hreleased x hx f name hx'
  obtain ⟨b, hb, hname⟩ := hanswered y hy a.name hy'
  obtain ⟨hargs, -, hbinding⟩ := mem_inputs.1 ha
  obtain ⟨hb, houtput⟩ := List.mem_filter.1 hb
  rw [List.inj_on_of_nodup_map hnames hb hargs hname, hbinding] at houtput
  cases houtput

theorem answered?_outputSteps {o : Argument × Bool} {x : Step} (h : x ∈ outputSteps o) :
    answered? x = none := by
  obtain ⟨a, present⟩ := o
  cases present with
  | false =>
    rw [outputSteps, if_neg Bool.false_ne_true, List.mem_singleton] at h
    exact h ▸ rfl
  | true =>
    rw [outputSteps, if_pos rfl, List.mem_cons, List.mem_singleton] at h
    obtain rfl | rfl := h <;> rfl

theorem IsAnswer.mem_outArgs {x : Step} (h : IsAnswer p x) {name : String}
    (hx : answered? x = some name) : ∃ b ∈ p.outArgs, b.name = name := by
  cases h with
  | aside h =>
    rw [h.answered] at hx
    cases hx
  | code failed => cases hx
  | null => cases hx
  | @scalar a h =>
    cases hx
    exact ⟨a, List.mem_of_find?_eq_some h, rfl⟩

theorem isBalanced_of_isWrapperRun {r : Run} (hnames : (p.args.map (·.name)).Nodup)
    (h : IsWrapperRun p r) : IsBalanced p r := by
  cases h with
  | @refused checked rejected hchecked condition hholds hrejected =>
    have hmute : ∀ x ∈ checked ++ rejected, IsMute x :=
      List.forall_mem_append.2 ⟨fun x hx => (hchecked x hx).toIsMute, hrejected⟩
    have hrefuses : Refuses p (checked ++ rejected) :=
      ⟨condition, (hchecked _ hholds).mem_refusals condition true rfl,
        List.mem_append_left _ hholds⟩
    refine ⟨fun _ => ⟨rfl, releases_eq_nil fun x hx => (hmute x hx).released⟩,
      fun hnot => absurd hrefuses hnot, ?_⟩
    refine List.pairwise_of_forall_mem_list fun x hx y _ f name hreleased => ?_
    rw [(hmute x hx).released] at hreleased
    cases hreleased
  | @accepted before between answer rest outcomes hbefore hbetween hanswer houtcomes hrest =>
    have hearly := early_cases hbefore hbetween hanswer
    have hreleases : releases (early p before between answer ++ late outcomes rest) =
        (inputs p).map freed ++ (outcomes.filter (·.2)).map fun o => freed o.1 := by
      rw [releases_append, releases_early hbefore hbetween hanswer, releases_late hrest]
    have htests : nullTests (early p before between answer ++ late outcomes rest) =
        outcomes.map fun o => (o.1.name, o.2) := by
      rw [nullTests_append, nullTests_early hbefore hbetween hanswer, nullTests_late hrest,
        List.nil_append]
    refine ⟨?_, fun _ => ⟨rfl, ⟨before, _, by rw [early, List.append_assoc, List.cons_append],
      releases_eq_nil fun x hx => (hbefore x hx).released⟩,
      fun a ha => isSettled hnames houtcomes hreleases htests ha⟩, ?_⟩
    · rintro ⟨condition, hc, hmem⟩
      obtain h | h := List.mem_append.1 hmem
      · obtain h | ⟨a, -, h⟩ := hearly _ h
        · exact absurd rfl (not_mem_refusals_of_isAnswer h hc)
        · cases h
      · obtain ⟨o, h⟩ | h := late_cases hrest _ h
        · exact absurd rfl (not_mem_refusals_of_mem_outputSteps h hc)
        · exact absurd rfl (h.fails condition)
    · refine pairwise_answers hnames (fun x hx f name hreleased => ?_)
        (fun y hy name hanswered => ?_) fun y hy => ?_
      · obtain h | ⟨a, ha, rfl⟩ := hearly x hx
        · rw [h.released?] at hreleased
          cases hreleased
        · rw [released?_releaseStmt] at hreleased
          cases hreleased
          exact ⟨a, ha, rfl⟩
      · obtain h | ⟨a, -, rfl⟩ := hearly y hy
        · exact h.mem_outArgs hanswered
        · cases hanswered
      · obtain ⟨o, h⟩ | h := late_cases hrest y hy
        · exact answered?_outputSteps h
        · exact h.answered

theorem isBalanced_run (v : Verbosity) (name : String) (hnames : (p.args.map (·.name)).Nodup)
    (holds : Outcomes) : IsBalanced p ((function v name p).run holds) :=
  isBalanced_of_isWrapperRun hnames (isWrapperRun_run v name p holds)

end CqlGlue.SqliteWrapper

namespace CqlGlue.SqliteExtension

open Code SqliteWrapper

/-- The wrapper of a procedure, whose arguments have names of their own, declares each argument
once before the call, and whatever conditions come to, it is balanced. Its labels are the two
exits. -/
theorem wrapper_isBalanced (o : Options) {s : Schema} {p : Procedure} (hp : p ∈ s.wrapped)
    (hnames : (p.args.map (·.name)).Nodup) (hown : ∀ a ∈ p.args, a.name ∉ ownVariables p) :
    let wrapper := SqliteWrapper.function o.verbosity (sqlName o p) p
    wrapper ∈ wrappers o s ∧ Text.InOrder [wrapper.text] (text o s) ∧
      wrapper.body.filterMap Stmt.label? = [badExit, goodExit] ∧ DeclaresArguments p wrapper ∧
      ∀ holds, IsBalanced p (wrapper.run holds) := by
  have hordered : p ∈ ordered s := List.mem_mergeSort.2 hp
  refine ⟨List.mem_map.2 ⟨p, hordered, rfl⟩, ?_, labels_function _ _ p,
    declaresArguments _ _ hnames hown, isBalanced_run _ _ hnames⟩
  exact .before (.after _ (.join_of_mem hordered (.before (.after _ (.self _)) _))) _

/-- A procedure with references in all directions, of which one is the scalar result. -/
def publish : Procedure :=
  ⟨"publish",
    [⟨"title", .text, true, .inOnly, none, false⟩, ⟨"page", .blob, false, .inOut, none, false⟩,
      ⟨"reader", .object, false, .outOnly, none, false⟩,
      ⟨"number", .long, true, .outOnly, none, false⟩], none, [], some true, false⟩

theorem wrapper_isBalanced_publish :
    let o : Options := ⟨"pages.json", "pages.h", none, .quiet⟩
    let s : Schema := ⟨[], [], [], [], [], [publish]⟩
    let wrapper := SqliteWrapper.function .quiet "publish" publish
    publish ∈ s.wrapped ∧ (publish.args.map (·.name)).Nodup ∧
      (∀ a ∈ publish.args, a.name ∉ ownVariables publish) ∧
      (wrapper ∈ wrappers o s ∧ Text.InOrder [wrapper.text] (text o s) ∧
        wrapper.body.filterMap Stmt.label? = [badExit, goodExit] ∧
        DeclaresArguments publish wrapper ∧ ∀ holds, IsBalanced publish (wrapper.run holds)) ∧
      (wrapper.run fun _ _ => true).control = .returned ∧
      releases (wrapper.run fun _ condition => condition matches .name _).steps =
        [("cql_string_release", "title"), ("cql_blob_release", "page"),
          ("cql_object_release", "reader")] := by
  have hp : publish ∈ (⟨[], [], [], [], [], [publish]⟩ : Schema).wrapped :=
    List.mem_filter.2 ⟨List.mem_cons_self, rfl⟩
  have hnames : (publish.args.map (·.name)).Nodup := by decide
  have hown : ∀ a ∈ publish.args, a.name ∉ ownVariables publish := by decide
  exact ⟨hp, hnames, hown,
    wrapper_isBalanced ⟨"pages.json", "pages.h", none, .quiet⟩ hp hnames hown, by decide, by decide⟩

end CqlGlue.SqliteExtension
