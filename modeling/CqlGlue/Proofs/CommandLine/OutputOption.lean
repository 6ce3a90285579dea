import CqlGlue.CommandLine.Command
import CqlGlue.Proofs.CommandLine.Readings

/-!
# Saying where the text goes

The option for the output path can be put into a command line wherever an option can stand, before
the command or behind it, and changes nothing there but the output path.

## Main definitions
* `TakesOption` says that an option can stand behind some words.
* `SaysOutput` lists the spellings of the option.

## Main statements
* `parse_append_output`: the option adds the output path to what a command line asks for.
-/

namespace CqlGlue.CommandLine

open State

variable {path : String} {s s' t before : State} {words more : List String} {spec : Spec}
  {c : Subcommand} {rest : List String}

/-! ## Whole command lines -/

theorem readCommand_eq (spec : Spec) (words : List String) (s : State) :
    readCommand spec words s = words.foldlM (State.step spec) s >>= State.settle := by
  induction words generalizing s with
  | nil => rfl
  | cons word words ih =>
    rw [readCommand, List.foldlM_cons, bind_assoc]
    exact bind_congr fun t => ih t

/-- Whether a word before the command is read as one more option or value of one. -/
def isRead (s : State) (word : String) : Bool :=
  s.escaped || s.awaits || (word != "help" && (Subcommand.ofName? word).isNone)

theorem readMain_of_isRead {word : String} (h : isRead s word = true) :
    readMain (word :: words) s = s.step mainSpec word >>= readMain words := by
  rw [readMain]
  rw [isRead] at h
  split
  · have hword : word ≠ "help" ∧ Subcommand.ofName? word = none := by simp_all
    rw [if_neg (by simpa using hword.1), hword.2]
  · rfl

/-- The command that a word is, with the words behind it. The only other word that ends the options
before the command asks for help. -/
def commandAt (word : String) (words : List String) :
    Except UsageError (Subcommand × List String) :=
  match Subcommand.ofName? word with
  | some c => .ok (c, words)
  | none => .error (helpOn words)

theorem readMain_of_not_isRead {word : String} (h : isRead s word = false) :
    readMain (word :: words) s = (commandAt word words).map fun r => (s, some r) := by
  have hopen : (!s.escaped && !s.awaits) = true := by
    rw [isRead] at h
    simp_all
  rw [readMain, if_pos hopen, commandAt]
  by_cases hword : word = "help"
  · subst hword
    rfl
  · have hsome : (Subcommand.ofName? word).isSome = true := by
      rw [isRead] at h
      rw [← Option.not_isNone]
      simp_all
    obtain ⟨c, hc⟩ := Option.isSome_iff_exists.1 hsome
    rw [if_neg (by simpa using hword), hc]
    rfl

theorem grows_readMain {r : Option (Subcommand × List String)}
    (h : readMain words s = .ok (before, r)) : Grows s before := by
  induction words generalizing s with
  | nil =>
    cases h
    exact .refl _
  | cons word words ih =>
    cases hread : isRead s word with
    | true =>
      rw [readMain_of_isRead hread] at h
      obtain ⟨t, ht, h⟩ := exists_of_bind_eq_ok h
      exact ((carries_step mainSpec word).grows ht).trans (ih h)
    | false =>
      rw [readMain_of_not_isRead hread] at h
      cases hc : commandAt word words <;> rw [hc] at h <;> cases h
      exact .refl _

/-- Two readings on the way to agreement come to the same command. -/
theorem leads_readMain {r : Option (Subcommand × List String)}
    (h : readMain words s = .ok (before, r)) (hfree : .output ∉ before.keys)
    (hleads : Leads path s s') :
    ∃ before', readMain words s' = .ok (before', r) ∧ Leads path before before' := by
  induction words generalizing s s' with
  | nil =>
    cases h
    exact ⟨s', rfl, hleads⟩
  | cons word words ih =>
    have hsame : isRead s' word = isRead s word := by
      rw [isRead, isRead, hleads.escaped, hleads.awaits_eq]
    cases hread : isRead s word with
    | true =>
      rw [readMain_of_isRead hread] at h
      rw [readMain_of_isRead (hsame.trans hread)]
      obtain ⟨t, ht, h⟩ := exists_of_bind_eq_ok h
      obtain ⟨t', ht', hleads'⟩ :=
        (carries_step mainSpec word).leads ht ((grows_readMain h).notMem hfree) hleads
      rw [ht']
      exact ih h hleads'
    | false =>
      rw [readMain_of_not_isRead hread] at h
      rw [readMain_of_not_isRead (hsame.trans hread)]
      cases hc : commandAt word words <;> rw [hc] at h <;> cases h
      exact ⟨s', rfl, hleads⟩

theorem readMain_append_of_none (h : readMain words s = .ok (before, none)) (more : List String) :
    readMain (words ++ more) s = readMain more before := by
  induction words generalizing s with
  | nil =>
    cases h
    rfl
  | cons word words ih =>
    cases hread : isRead s word with
    | true =>
      rw [readMain_of_isRead hread] at h
      obtain ⟨t, ht, h⟩ := exists_of_bind_eq_ok h
      rw [List.cons_append, readMain_of_isRead hread, ht]
      exact ih h
    | false =>
      rw [readMain_of_not_isRead hread] at h
      cases hc : commandAt word words <;> rw [hc] at h <;> cases h

theorem readMain_append_of_some (h : readMain words s = .ok (before, some (c, rest)))
    (more : List String) :
    readMain (words ++ more) s = .ok (before, some (c, rest ++ more)) := by
  induction words generalizing s with
  | nil => cases h
  | cons word words ih =>
    cases hread : isRead s word with
    | true =>
      rw [readMain_of_isRead hread] at h
      obtain ⟨t, ht, h⟩ := exists_of_bind_eq_ok h
      rw [List.cons_append, readMain_of_isRead hread, ht]
      exact ih h
    | false =>
      rw [readMain_of_not_isRead hread, commandAt] at h
      rw [List.cons_append, readMain_of_not_isRead hread, commandAt]
      cases hc : Subcommand.ofName? word <;> rw [hc] at h <;> cases h
      rfl

/-- An option can stand behind some words: they are read as they are, none of them is the escape,
and none waits for its value. -/
def TakesOption (words : List String) : Prop :=
  (∃ s t, readMain words {} = .ok (s, none) ∧ s.escaped = false ∧ s.settle = .ok t) ∨
    ∃ before c rest s t, readMain words {} = .ok (before, some (c, rest)) ∧
      rest.foldlM (State.step c.spec) {} = .ok s ∧ s.escaped = false ∧ s.settle = .ok t

/-- The spellings of the option for an output path. -/
inductive SaysOutput (path : String) : List String → Prop
  /-- A path that looks like an option itself cannot stand apart. -/
  | apart {option : String} (h : option ∈ ["--output", "-o"]) (hpath : Word.ofText path = .plain) :
    SaysOutput path [option, path]
  | attached {option : String} (h : option ∈ ["--output=", "-o="]) :
    SaysOutput path [option ++ path]

/-! ## The option itself -/

/-- The option for an output path is known to a specification. -/
structure KnowsOutput (spec : Spec) : Prop where
  long : spec.longs.lookup "output" = some .output
  short : spec.shorts.lookup 'o' = some .output

theorem knowsOutput_mainSpec : KnowsOutput mainSpec := ⟨rfl, rfl⟩

theorem knowsOutput_spec (c : Subcommand) : KnowsOutput c.spec := by
  cases c <;> exact ⟨by decide, rfl⟩

theorem step_apart (hspec : KnowsOutput spec) {option : String} (h : option ∈ ["--output", "-o"])
    (hs : s.escaped = false) : s.step spec option = s.await .output := by
  rw [State.step, if_neg (by simp [hs])]
  rcases List.mem_pair.1 h with rfl | rfl
  · change readLong spec s "output" none = _
    rw [readLong, hspec.long]
    rfl
  · change readShorts spec ['o'] s = _
    rw [readShorts, hspec.short]
    rfl

theorem step_attached (hspec : KnowsOutput spec) {option : String}
    (h : option ∈ ["--output=", "-o="]) (hs : s.escaped = false) :
    s.step spec (option ++ path) = s.attach .output path := by
  rw [State.step, if_neg (by simp [hs])]
  rcases List.mem_pair.1 h with rfl | rfl
  · have hword : Word.ofText ("--output=" ++ path) =
        .long "output" (some (String.ofList path.toList)) := by
      rw [Word.ofText, String.toList_append]
      rfl
    rw [hword, String.ofList_toList]
    change readLong spec s "output" (some path) = _
    rw [readLong, hspec.long]
    rfl
  · have hword : Word.ofText ("-o=" ++ path) = .shorts ('o' :: '=' :: path.toList) := by
      rw [Word.ofText, String.toList_append]
      rfl
    rw [hword]
    change readShorts spec ('o' :: '=' :: path.toList) s = _
    rw [readShorts, hspec.short]
    simp [Key.takesValue, Key.kind]

/-- What is noted at last is the output path. -/
theorem record_output (hpath : path ≠ "") (ht : .output ∉ t.keys) :
    t.record .output path = .ok (t.note .output [path]) := by
  rw [record_eq, has_eq_false ht, settledValues]
  simp [Key.repeats, Key.kind, hpath, Except.map]

theorem adds_note (t : State) (path : String) : Adds path t (t.note .output [path]) :=
  ⟨⟨t.given, [], (List.append_nil _).symm, rfl⟩, rfl, rfl, rfl⟩

/-- The option is on the way to agreement as soon as its value has come. -/
theorem leads_pending (hpath : path ≠ "") (ht : s.settle = .ok t) (hfree : .output ∉ t.keys) :
    Leads path s { t with pending := some (.output, some path) } where
  settle := by
    intro u hu _
    cases hu.symm.trans ht
    refine ⟨t.note .output [path], ?_, adds_note t path⟩
    rw [State.settle, ← record_output hpath hfree, show { t with pending := none } = t by
      rw [← (settles ht).pending]]
  escaped := (settles ht).escaped
  placed := (settles ht).placed
  awaits := .inr ⟨(settles ht).awaits, rfl⟩

theorem leads_note (ht : s.settle = .ok t) : Leads path s (t.note .output [path]) where
  settle := by
    intro u hu _
    cases hu.symm.trans ht
    refine ⟨t.note .output [path], ?_, adds_note t path⟩
    rw [State.settle, note, (settles ht).pending]
  escaped := (settles ht).escaped
  placed := (settles ht).placed
  awaits := .inr ⟨(settles ht).awaits, by rw [State.awaits, note, (settles ht).pending]⟩

theorem isRead_of_hyphen {word : String} (h : word.toList.head? = some '-') :
    isRead s word = true := by
  have hcommand : ∀ c : Subcommand, c.name ≠ word := by
    rintro c rfl
    cases c <;> cases h
  have hhelp : word ≠ "help" := by
    rintro rfl
    cases h
  have hnone : Subcommand.ofName? word = none := by
    simp [Subcommand.ofName?, hcommand]
  simp [isRead, hhelp, hnone]

/-- The option is read to the end, before the command as well as behind it. -/
theorem SaysOutput.exists_leads {spelled : List String} (h : SaysOutput path spelled)
    (hpath : path ≠ "") (hspec : KnowsOutput spec) (hs : s.escaped = false)
    (ht : s.settle = .ok t) (hfree : .output ∉ t.keys) :
    ∃ s', spelled.foldlM (State.step spec) s = .ok s' ∧ Leads path s s' ∧
      (spec = mainSpec → readMain spelled s = .ok (s', none)) := by
  cases h with
  | @apart option hoption hplain =>
    have hfirst : s.step spec option = .ok { t with pending := some (.output, none) } := by
      rw [step_apart hspec hoption hs, await, ht]
      rfl
    have hsecond : State.step spec { t with pending := some (.output, none) } path =
        .ok { t with pending := some (.output, some path) } := by
      rw [State.step, if_neg (by simp [(settles ht).escaped, hs]), hplain]
    refine ⟨_, ?_, leads_pending hpath ht hfree, ?_⟩
    · rw [List.foldlM_cons, hfirst, ok_bind, List.foldlM_cons, hsecond]
      rfl
    · rintro rfl
      have hread : isRead s option = true := by
        apply isRead_of_hyphen
        rcases List.mem_pair.1 hoption with rfl | rfl <;> rfl
      rw [readMain_of_isRead hread, hfirst, ok_bind, readMain_of_isRead (by simp [isRead, awaits]),
        hsecond]
      rfl
  | @attached option hoption =>
    have hstep : s.step spec (option ++ path) = .ok (t.note .output [path]) := by
      rw [step_attached hspec hoption hs, attach, ht]
      exact record_output hpath hfree
    refine ⟨_, ?_, leads_note ht, ?_⟩
    · rw [List.foldlM_cons, hstep]
      rfl
    · rintro rfl
      have hread : isRead s (option ++ path) = true := by
        apply isRead_of_hyphen
        rw [String.toList_append]
        rcases List.mem_pair.1 hoption with rfl | rfl <;> rfl
      rw [readMain_of_isRead hread, hstep]
      rfl

/-! ## Adding the option -/

/-- What a command is made of does not include the output path. -/
theorem ofState_of_adds (h : Adds path s s') (c : Subcommand) :
    Command.ofState c s' = Command.ofState c s := by
  have hvalue : ∀ k, k ≠ Key.output → s'.value? k = s.value? k := fun k hk => h.value?_eq hk
  have hrequired : ∀ k, k ≠ Key.output → Command.required s' k = Command.required s k := by
    intro k hk
    rw [Command.required, Command.required, hvalue k hk]
  have hor : ∀ k v, k ≠ Key.output → Command.valueOr s' k v = Command.valueOr s k v := by
    intro k v hk
    rw [Command.valueOr, Command.valueOr, hvalue k hk]
  cases c <;>
    simp only [Command.ofState, hvalue, hrequired, hor, h.has_eq, h.values_eq, ne_eq, reduceCtorEq,
      not_false_eq_true]

/-- A reading from the beginning has the output path only with its value. -/
theorem notMem_of_value? (h : Grows {} s) (hpending : s.pending = none)
    (hnone : s.value? .output = none) : .output ∉ s.keys := by
  rw [keys_eq_of_pending hpending]
  intro hmem
  obtain ⟨x, hx, hkey⟩ := List.mem_map.1 hmem
  have hvalued := h.valued (by simp) x hx hkey
  rw [value?, values, List.head?_eq_none_iff, List.flatMap_eq_nil_iff] at hnone
  exact hvalued (hnone x (List.mem_filter.2 ⟨hx, by simp [hkey]⟩))

/-- What a command line that asks for something is made of. -/
structure Parses (args : List String) (i : Invocation) (before : State) (c : Subcommand)
    (rest : List String) (after settled : State) : Prop where
  main : readMain args {} = .ok (before, some (c, rest))
  command : readCommand c.spec rest {} = .ok after
  asked : Command.ofState c after = .ok i.command
  settle : before.settle = .ok settled
  output : i.output = (after.value? .output <|> settled.value? .output)
  verbose : i.verbose = (settled.has .verbose || after.has .verbose)

theorem parses_of_parse {args : List String} {i : Invocation}
    (h : Invocation.parse args = .ok i) :
    ∃ before c rest after settled, Parses args i before c rest after settled := by
  obtain ⟨⟨before, r⟩, hmain, h⟩ := exists_of_bind_eq_ok h
  cases r with
  | none =>
    obtain ⟨settled, _, h⟩ := exists_of_bind_eq_ok h
    cases h
  | some r =>
    obtain ⟨after, hcommand, h⟩ := exists_of_bind_eq_ok h
    obtain ⟨command, hasked, h⟩ := exists_of_bind_eq_ok h
    obtain ⟨settled, hsettle, h⟩ := exists_of_bind_eq_ok h
    cases h
    exact ⟨before, r.1, r.2, after, settled, hmain, hcommand, hasked, hsettle, rfl, rfl⟩

theorem Parses.parse {args : List String} {i : Invocation} {after settled : State}
    (h : Parses args i before c rest after settled) : Invocation.parse args = .ok i := by
  rw [Invocation.parse, h.main, ok_bind]
  simp only [h.command, h.asked, h.settle, ok_bind, ← h.output, ← h.verbose]
  rfl

theorem Parses.value?_after {args : List String} {i : Invocation} {after settled : State}
    (h : Parses args i before c rest after settled) (hnone : i.output = none) :
    after.value? .output = none := by
  have houtput := h.output.symm.trans hnone
  cases hafter : after.value? .output with
  | none => rfl
  | some v =>
    rw [hafter] at houtput
    cases houtput

/-- A command line without the option has the output path nowhere. -/
theorem Parses.notMem {args : List String} {i : Invocation} {after settled : State}
    (h : Parses args i before c rest after settled) (hnone : i.output = none) :
    .output ∉ after.keys ∧ .output ∉ settled.keys := by
  have hsettled : settled.value? .output = none := by
    have houtput := h.output.symm.trans hnone
    rwa [h.value?_after hnone] at houtput
  have hcommand := h.command
  rw [readCommand_eq] at hcommand
  obtain ⟨t, ht, hsettle⟩ := exists_of_bind_eq_ok hcommand
  exact ⟨notMem_of_value? (((carries_foldlM c.spec rest).grows ht).trans (settles hsettle).grows)
      (settles hsettle).pending (h.value?_after hnone),
    notMem_of_value? ((grows_readMain h.main).trans (settles h.settle).grows)
      (settles h.settle).pending hsettled⟩

/-- The option before the command. -/
theorem parse_append_output_main {first last spelled : List String} {i : Invocation}
    {after settled : State} (hread : readMain first {} = .ok (s, none)) (hs : s.escaped = false)
    (ht : s.settle = .ok t) (hspelled : SaysOutput path spelled) (hpath : path ≠ "")
    (h : Parses (first ++ last) i before c rest after settled) (hnone : i.output = none) :
    Invocation.parse (first ++ spelled ++ last) = .ok { i with output := some path } := by
  obtain ⟨hafter, hsettled⟩ := h.notMem hnone
  have hbefore := (settles h.settle).grows.notMem hsettled
  have hlast := h.main
  rw [readMain_append_of_none hread] at hlast
  have hfree : .output ∉ t.keys := (settles ht).keys ▸ (grows_readMain hlast).notMem hbefore
  obtain ⟨s', -, hleads, hspelledMain⟩ :=
    hspelled.exists_leads hpath knowsOutput_mainSpec hs ht hfree
  obtain ⟨before', hbefore', hleads'⟩ := leads_readMain hlast hbefore hleads
  obtain ⟨settled', hsettle', hadds⟩ := hleads'.settle h.settle hsettled
  have hmain : readMain (first ++ spelled ++ last) {} = .ok (before', some (c, rest)) := by
    rw [List.append_assoc, readMain_append_of_none hread,
      readMain_append_of_none (hspelledMain rfl), hbefore']
  refine Parses.parse ⟨hmain, h.command, h.asked, hsettle', ?_, ?_⟩
  · rw [hadds.value?_output (has_eq_false hsettled), h.value?_after hnone]
    rfl
  · rw [hadds.has_eq (by decide), h.verbose]

/-- The option behind the command. -/
theorem parse_append_output_command {first last spelled : List String} {i : Invocation}
    {after settled : State} {d : Subcommand} {words : List String}
    (hread : readMain first {} = .ok (s', some (d, words)))
    (hstep : words.foldlM (State.step d.spec) {} = .ok s) (hs : s.escaped = false)
    (ht : s.settle = .ok t) (hspelled : SaysOutput path spelled) (hpath : path ≠ "")
    (h : Parses (first ++ last) i before c rest after settled) (hnone : i.output = none) :
    Invocation.parse (first ++ spelled ++ last) = .ok { i with output := some path } := by
  obtain ⟨hafter, hsettled⟩ := h.notMem hnone
  have hmain := h.main
  rw [readMain_append_of_some hread] at hmain
  cases hmain
  have hcommand := h.command
  rw [readCommand_eq, List.foldlM_append, hstep, ok_bind] at hcommand
  obtain ⟨u, hlast, hsettle⟩ := exists_of_bind_eq_ok hcommand
  have hu := (settles hsettle).grows.notMem hafter
  have hfree : .output ∉ t.keys :=
    (settles ht).keys ▸ ((carries_foldlM c.spec last).grows hlast).notMem hu
  obtain ⟨v, hv, hleads, -⟩ := hspelled.exists_leads hpath (knowsOutput_spec c) hs ht hfree
  obtain ⟨u', hu', hleads'⟩ := (carries_foldlM c.spec last).leads hlast hu hleads
  obtain ⟨after', hafter', hadds⟩ := hleads'.settle hsettle hafter
  have hmain' : readMain (first ++ spelled ++ last) {} =
      .ok (s', some (c, words ++ spelled ++ last)) := by
    rw [List.append_assoc, readMain_append_of_some hread, List.append_assoc]
  have hcommand' : readCommand c.spec (words ++ spelled ++ last) {} = .ok after' := by
    rw [readCommand_eq, List.foldlM_append, List.foldlM_append, hstep, ok_bind, hv, ok_bind, hu',
      ok_bind, hafter']
  refine Parses.parse ⟨hmain', hcommand', (ofState_of_adds hadds c).trans h.asked, h.settle, ?_, ?_⟩
  · rw [hadds.value?_output (has_eq_false hafter)]
    rfl
  · rw [hadds.has_eq (by decide), h.verbose]

/-- The option adds the output path to what a command line asks for, and nothing else. -/
theorem parse_append_output {first last spelled : List String} {i : Invocation}
    (hfirst : TakesOption first) (hspelled : SaysOutput path spelled) (hpath : path ≠ "")
    (hparse : Invocation.parse (first ++ last) = .ok i) (hnone : i.output = none) :
    Invocation.parse (first ++ spelled ++ last) = .ok { i with output := some path } := by
  obtain ⟨before, c, rest, after, settled, h⟩ := parses_of_parse hparse
  rcases hfirst with ⟨s, t, hread, hs, ht⟩ | ⟨s', d, words, s, t, hread, hstep, hs, ht⟩
  · exact parse_append_output_main hread hs ht hspelled hpath h hnone
  · exact parse_append_output_command hread hstep hs ht hspelled hpath h hnone

end CqlGlue.CommandLine
