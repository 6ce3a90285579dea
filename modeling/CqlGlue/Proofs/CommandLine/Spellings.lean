import CqlGlue.CommandLine.Run
import CqlGlue.Proofs.CommandLine.OutputOption
import CqlGlue.Proofs.Text.Pieces

/-!
# Options under their old spellings

Older scripts spell four options with an underscore. Every command declares such a spelling as an
alias of the new one, or neither of them. So a reader of command lines that takes an alias for the
name, and all names that are not declared for the same fault, reads a command line the same under
old spellings and under new ones. Behind a bare `--` the words are arguments, which are not spelled
anew.

## Main definitions
* `oldSpellings` lists the spellings, `Respells` says that a command line gets new ones.
* `LineReader` is a reader of command lines that reads word by word.
* `LineReader.ReadsDeclared` says how it reads the options that are declared and those that are not.
* `Invocation.reader` reads command lines as `Invocation.parse` does.

## Main statements
* `read_respells`: readers read the same under old spellings and new ones.
* `run_respells`: runs that are asked for under either end the same.
-/

namespace CqlGlue.CommandLine

/-- The old spellings of options, and what they are spelled like now. -/
def oldSpellings : List (String × String) :=
  [("cql_header", "cql-header"), ("jni_header", "jni-header"), ("emit_c", "emit-c"),
    ("emit_impl", "emit-impl")]

/-- The word that gives an option, perhaps with a value. -/
def optionWord (name : String) : Option String → String
  | none => "--" ++ name
  | some value => "--" ++ name ++ "=" ++ value

/-- A word that gives an option under its old spelling is put under the new one. -/
inductive RespellsWord : String → String → Prop
  | option {old new : String} (h : (old, new) ∈ oldSpellings) (value : Option String) :
    RespellsWord (optionWord old value) (optionWord new value)

/-- Some options in front of the first bare `--` are put under their new spellings. -/
inductive Respells : List String → List String → Prop
  | nil : Respells [] []
  | escape (words : List String) : Respells ("--" :: words) ("--" :: words)
  | keep {word : String} {words words' : List String} (hword : word ≠ "--")
    (h : Respells words words') : Respells (word :: words) (word :: words')
  | respell {word word' : String} {words words' : List String} (hword : RespellsWord word word')
    (h : Respells words words') : Respells (word :: words) (word' :: words')

/-! ## Readers -/

/-- The options that are declared for a command, or for what stands in front of one. -/
def optionsIn : Option Subcommand → List Declaration
  | none => mainSpec.options
  | some c => c.spec.options

/-- A spelling of an option that is declared. -/
def IsDeclared (scope : Option Subcommand) (name : String) : Prop :=
  ∃ d ∈ optionsIn scope, name ∈ d.spellings

instance (scope : Option Subcommand) (name : String) : Decidable (IsDeclared scope name) :=
  List.decidableBEx _ _

/-- A reader of command lines. It reads word by word, to a result or a fault of some kind. -/
structure LineReader (σ ρ ε : Type) where
  start : σ
  step : σ → String → Except ε σ
  finish : σ → Except ε ρ
  /-- The command whose options come next, if one has been named. -/
  scope : σ → Option Subcommand
  /-- Whether all words that come are arguments. -/
  escaped : σ → Bool

namespace LineReader

variable {σ ρ ε : Type}

/-- Reads a command line. -/
def read (r : LineReader σ ρ ε) (words : List String) : Except ε ρ :=
  words.foldlM r.step r.start >>= r.finish

/-- What is relied on in a reader: only a bare `--` makes arguments of all words, an alias functions
as the name of its option, and a name that is not declared is a fault, whatever it is. -/
structure ReadsDeclared (r : LineReader σ ρ ε) : Prop where
  start : r.escaped r.start = false
  escape : ∀ s t word, r.escaped s = false → word ≠ "--" → r.step s word = .ok t →
    r.escaped t = false
  byAlias : ∀ s, r.escaped s = false → ∀ d ∈ optionsIn (r.scope s), ∀ name ∈ d.aliases, ∀ value,
    r.step s (optionWord name value) = r.step s (optionWord d.long value)
  undeclared : ∀ s, r.escaped s = false → ∃ fault, ∀ name, name ≠ "" → '=' ∉ name.toList →
    ¬ IsDeclared (r.scope s) name → ∀ value, r.step s (optionWord name value) = .error fault

end LineReader

/-! ## The declarations -/

theorem plain_oldSpellings : ∀ p ∈ oldSpellings,
    (p.1 ≠ "" ∧ '=' ∉ p.1.toList) ∧ p.2 ≠ "" ∧ '=' ∉ p.2.toList := by
  decide

/-- An old spelling is an alias of the new one, or neither is declared. -/
theorem declared_oldSpelling (scope : Option Subcommand) : ∀ p ∈ oldSpellings,
    (∃ d ∈ optionsIn scope, d.long = p.2 ∧ p.1 ∈ d.aliases) ∨
      ¬ IsDeclared scope p.1 ∧ ¬ IsDeclared scope p.2 := by
  cases scope with
  | none => decide
  | some c => cases c <;> decide

/-! ## Many words -/

section

variable {σ ρ ε : Type} {r : LineReader σ ρ ε} {word word' : String} {words words' : List String}

theorem optionWord_ne_escape {name : String} (h : name ≠ "") (value : Option String) :
    optionWord name value ≠ "--" := by
  intro heq
  have hlength := congrArg String.length heq
  have hname := String.length_eq_zero_iff.not.2 h
  have hhyphens : "--".length = 2 := rfl
  cases value <;> simp only [optionWord, String.length_append, hhyphens] at hlength <;> omega

theorem RespellsWord.ne_escape (h : RespellsWord word word') : word ≠ "--" := by
  obtain @⟨old, new, h, value⟩ := h
  exact optionWord_ne_escape (plain_oldSpellings _ h).1.1 value

/-- A word is read the same under either spelling. -/
theorem step_respells (hr : r.ReadsDeclared) (h : RespellsWord word word') {s : σ}
    (hs : r.escaped s = false) : r.step s word = r.step s word' := by
  obtain @⟨old, new, h, value⟩ := h
  rcases declared_oldSpelling (r.scope s) _ h with ⟨d, hd, rfl, halias⟩ | ⟨hold, hnew⟩
  · exact hr.byAlias s hs d hd old halias value
  · obtain ⟨⟨hne, hequals⟩, hne', hequals'⟩ := plain_oldSpellings _ h
    obtain ⟨fault, hfault⟩ := hr.undeclared s hs
    rw [hfault old hne hequals hold, hfault new hne' hequals' hnew]

/-- What follows a word that is no escape is not behind one. -/
theorem step_bind_congr (hr : r.ReadsDeclared) {s : σ} (hs : r.escaped s = false)
    (hword : word ≠ "--") {α : Type} {f g : σ → Except ε α}
    (h : ∀ t, r.escaped t = false → f t = g t) : r.step s word >>= f = r.step s word >>= g := by
  cases ht : r.step s word with
  | error e => rfl
  | ok t => exact h t (hr.escape s t word hs hword ht)

/-- So are many words that no escape stands in front of. -/
theorem foldlM_respells (hr : r.ReadsDeclared) (h : Respells words words') {s : σ}
    (hs : r.escaped s = false) : words.foldlM r.step s = words'.foldlM r.step s := by
  induction h generalizing s with
  | nil => rfl
  | escape words => rfl
  | keep hword h ih =>
    rw [List.foldlM_cons, List.foldlM_cons]
    exact step_bind_congr hr hs hword fun t ht => ih ht
  | respell hword h ih =>
    rw [List.foldlM_cons, List.foldlM_cons, ← step_respells hr hword hs]
    exact step_bind_congr hr hs hword.ne_escape fun t ht => ih ht

/-- Readers read a command line to the same result, or the same kind of fault, under old spellings
and under new ones. -/
theorem read_respells (hr : r.ReadsDeclared) (h : Respells words words') :
    r.read words = r.read words' := by
  rw [LineReader.read, LineReader.read, foldlM_respells hr h hr.start]

end

/-! ## The shape of a word -/

variable {s t : State} {spec : Spec} {word word' name old new : String}
  {words words' : List String}

/-- More than two hyphens make a long option, which is cut at its first equals sign. -/
theorem ofText_of_hyphens {cs : List Char} (hne : cs ≠ []) (h : word.toList = '-' :: '-' :: cs) :
    Word.ofText word =
      match Text.splitFirst ['='] cs with
      | some (name, value) => .long (String.ofList name) (some (String.ofList value))
      | none => .long (String.ofList cs) none := by
  obtain ⟨c, cs, rfl⟩ := List.exists_cons_of_ne_nil hne
  rw [Word.ofText, h]
  rfl

theorem ofText_long (hne : name ≠ "") (hequals : '=' ∉ name.toList) :
    Word.ofText ("--" ++ name) = .long name none := by
  have hword : ("--" ++ name).toList = '-' :: '-' :: name.toList := String.toList_append ..
  have hcut : Text.splitFirst ['='] name.toList = none := by
    rw [Text.splitFirst_eq_none_iff]
    exact fun h => hequals (h.subset List.mem_cons_self)
  rw [ofText_of_hyphens (by simpa using hne) hword, hcut]
  simp only [String.ofList_toList]

theorem ofText_long_valued (hequals : '=' ∉ name.toList) (value : String) :
    Word.ofText ("--" ++ name ++ "=" ++ value) = .long name (some value) := by
  have hword : ("--" ++ name ++ "=" ++ value).toList =
      '-' :: '-' :: (name.toList ++ '=' :: value.toList) := by
    simp only [String.toList_append, List.append_assoc]
    rfl
  rw [ofText_of_hyphens (by simp) hword, Text.splitFirst_append_cons hequals]
  simp only [String.ofList_toList]

theorem ofText_eq_escape_iff : Word.ofText word = .escape ↔ word = "--" := by
  constructor
  · intro h
    rw [Word.ofText] at h
    split at h
    · rename_i hword
      exact String.toList_injective hword
    · split at h <;> cases h
    · cases h
    · cases h
  · rintro rfl
    rfl

/-! ## The escape -/

open State

/-- A part of the reading that reads no escape. -/
def KeepsEscape (op : State → Except UsageError State) : Prop :=
  ∀ s t, op s = .ok t → t.escaped = s.escaped

namespace KeepsEscape

theorem bind {f g : State → Except UsageError State} (hf : KeepsEscape f) (hg : KeepsEscape g) :
    KeepsEscape fun s => f s >>= g := by
  intro s u h
  obtain ⟨t, ht, hu⟩ := exists_of_bind_eq_ok h
  exact (hg t u hu).trans (hf s t ht)

theorem settle : KeepsEscape State.settle := fun _ _ h => (settles h).escaped

theorem note (k : Key) (values : Bool → Except UsageError (List String)) :
    KeepsEscape fun s => (values (s.has k)).map (s.note k) := by
  intro s t h
  obtain ⟨vs, -, rfl⟩ := exists_of_map_eq_ok h
  rfl

theorem attach (k : Key) (v : String) : KeepsEscape (State.attach · k v) := by
  refine settle.bind (g := (State.record · k v)) ?_
  simp only [record_eq]
  exact note k (settledValues k v)

theorem await (k : Key) : KeepsEscape (State.await · k) := by
  refine settle.bind fun s t h => ?_
  cases h
  rfl

theorem raise (k : Key) : KeepsEscape (State.raise · k) := by
  simp only [raise_eq]
  exact settle.bind (note k (raisedValues k))

theorem holdsOfOptions : HoldsOfOptions KeepsEscape where
  error _ _ _ := nofun
  nil := by
    rintro s t ⟨⟩
    rfl
  bind := bind
  raise _ := raise _
  await := await
  attach := attach

theorem place (spec : Spec) (text : String) : KeepsEscape (State.place spec · text) := by
  intro s t h
  beta_reduce at h
  rw [State.place] at h
  split at h
  · obtain ⟨u, hu, h⟩ := exists_of_bind_eq_ok h
    cases h
    exact settle s u hu
  · cases h
  · split at h <;> cases h

/-- Only two hyphens are the escape. -/
theorem step (spec : Spec) (hword : word ≠ "--") : KeepsEscape (State.step spec · word) := by
  intro s t h
  beta_reduce at h
  rw [State.step] at h
  split at h
  · exact place spec word s t h
  · split at h
    · rename_i hescape
      exact absurd (ofText_eq_escape_iff.1 hescape) hword
    · exact holdsOfOptions.readLong spec _ _ s t h
    · exact holdsOfOptions.readShorts spec _ s t h
    · split at h
      · cases h
        rfl
      · exact place spec word s t h

end KeepsEscape

/-! ## The reader of the program -/

/-- How far a command line has been read. -/
inductive Progress where
  /-- To what stands in front of a command. -/
  | main (s : State)
  /-- To the words of a command, behind what stands in front of it. -/
  | command (c : Subcommand) (before after : State)
  /-- To a request for help, which may name a command. -/
  | help (named : Bool)

namespace Progress

/-- Reads a word. -/
def step : Progress → String → Except UsageError Progress
  | main s, word =>
    if isRead s word then (s.step mainSpec word).map main
    else .ok ((Subcommand.ofName? word).elim (help false) fun c => command c s {})
  | command c before after, word => (after.step c.spec word).map (command c before)
  | help false, word =>
    if word == "help" || (Subcommand.ofName? word).isSome then .ok (help true)
    else .error (.unknownCommand word)
  | help true, word => .error (.unknownCommand word)

/-- What a command line asks for that ends here. -/
def finish : Progress → Except UsageError Invocation
  | main s => do
    let s ← s.settle
    .error (if s.given.isEmpty then .nothingGiven else .missingCommand)
  | command c before after => do
    let after ← after.settle
    let command ← Command.ofState c after
    let before ← before.settle
    return ⟨after.value? .output <|> before.value? .output,
      before.has .verbose || after.has .verbose, command⟩
  | help _ => .error .helpAsked

/-- The command whose options come next. -/
def scope : Progress → Option Subcommand
  | command c _ _ => some c
  | _ => none

/-- Whether all words that come are arguments. -/
def escaped : Progress → Bool
  | main s => s.escaped
  | command _ _ after => after.escaped
  | help _ => false

end Progress

/-- The reader of the program. -/
def Invocation.reader : LineReader Progress Invocation FaultKind where
  start := .main {}
  step p word := (p.step word).mapError UsageError.kind
  finish p := p.finish.mapError UsageError.kind
  scope := Progress.scope
  escaped := Progress.escaped

/-- The spellings that are declared are not empty and hold no equals sign. -/
theorem plain_spellings (scope : Option Subcommand) :
    ∀ d ∈ optionsIn scope, ∀ name ∈ d.spellings, name ≠ "" ∧ '=' ∉ name.toList := by
  cases scope with
  | none => decide
  | some c => cases c <;> decide

/-- All spellings of an option lead to its key. -/
theorem lookup_spelling (c : Subcommand) : ∀ d ∈ c.spec.options, ∀ name ∈ d.spellings,
    c.spec.longs.lookup name = some d.key := by
  cases c <;> decide

theorem lookup_of_undeclared (h : ∀ d ∈ spec.options, name ∉ d.spellings) :
    spec.longs.lookup name = none := by
  rw [List.lookup_eq_none_iff]
  intro entry hentry
  obtain ⟨d, hd, hentry⟩ := List.mem_flatMap.1 hentry
  obtain ⟨spelling, hspelling, rfl⟩ := List.mem_map.1 hentry
  rw [bne_iff_ne]
  rintro rfl
  exact h d hd hspelling

/-- The word of an option is read as one with a long name. -/
theorem step_optionWord (hs : s.escaped = false) (hne : name ≠ "") (hequals : '=' ∉ name.toList)
    (value : Option String) :
    s.step spec (optionWord name value) = s.readLong spec name value := by
  rw [State.step, hs, if_neg Bool.false_ne_true]
  cases value with
  | none => rw [optionWord, ofText_long hne hequals]
  | some value => rw [optionWord, ofText_long_valued hequals]

theorem isRead_optionWord (name : String) (value : Option String) (s : State) :
    isRead s (optionWord name value) = true := by
  apply isRead_of_hyphen
  cases value <;> simp only [optionWord, String.toList_append] <;> rfl

/-- An option is no command. -/
theorem optionWord_not_command (name : String) (value : Option String) :
    (optionWord name value == "help" ||
      (Subcommand.ofName? (optionWord name value)).isSome) = false := by
  have hread := isRead_optionWord name value {}
  simpa [isRead, State.awaits, Option.isSome_iff_ne_none] using hread

/-- Only a bare pair of hyphens is the escape. -/
theorem escaped_step {p q : Progress} (hp : p.escaped = false) (hword : word ≠ "--")
    (h : p.step word = .ok q) : q.escaped = false := by
  cases p with
  | main s =>
    rw [Progress.step] at h
    split at h
    · obtain ⟨t, ht, rfl⟩ := exists_of_map_eq_ok h
      exact (KeepsEscape.step mainSpec hword s t ht).trans hp
    · cases h
      cases Subcommand.ofName? word <;> rfl
  | command c before after =>
    obtain ⟨t, ht, rfl⟩ := exists_of_map_eq_ok h
    exact (KeepsEscape.step c.spec hword after t ht).trans hp
  | help named =>
    cases named with
    | false =>
      rw [Progress.step] at h
      split at h
      · cases h
        rfl
      · cases h
    | true => cases h

/-- The kind of fault that an option is that is not declared. -/
def Progress.undeclared : Progress → FaultKind
  | help _ => .invalidSubcommand
  | _ => .unknownArgument

/-- An option that is not declared is a fault wherever it stands. -/
theorem step_undeclared {p : Progress} (hp : p.escaped = false) (hne : name ≠ "")
    (hequals : '=' ∉ name.toList) (hname : ¬ IsDeclared p.scope name) (value : Option String) :
    (p.step (optionWord name value)).mapError UsageError.kind = .error p.undeclared := by
  have hlookup : ∀ spec : Spec, (∀ d ∈ spec.options, name ∉ d.spellings) → ∀ s : State,
      s.readLong spec name value = .error (.unknownOption name) := by
    intro spec hspec s
    rw [State.readLong, lookup_of_undeclared hspec]
  have hnone : ∀ d ∈ optionsIn p.scope, name ∉ d.spellings :=
    fun d hd hspelling => hname ⟨d, hd, hspelling⟩
  cases p with
  | main s =>
    rw [Progress.step, if_pos (isRead_optionWord name value s), step_optionWord hp hne hequals,
      hlookup _ hnone]
    rfl
  | command c before after =>
    rw [Progress.step, step_optionWord hp hne hequals, hlookup _ hnone]
    rfl
  | help named =>
    cases named with
    | false =>
      rw [Progress.step, optionWord_not_command]
      rfl
    | true => rfl

/-- The reader of the program reads the options as they are declared. -/
theorem readsDeclared_reader : Invocation.reader.ReadsDeclared where
  start := rfl
  escape := by
    intro p q word hp hword h
    have hstep : p.step word = .ok q := by
      change (p.step word).mapError UsageError.kind = .ok q at h
      cases hstep : p.step word with
      | error e =>
        rw [hstep] at h
        cases h
      | ok q' =>
        rw [hstep] at h
        cases h
        rfl
    exact escaped_step hp hword hstep
  byAlias := by
    intro p hp d hd name halias value
    have hmain : ∀ d ∈ mainSpec.options, d.aliases = [] := by decide
    cases p with
    | main s =>
      rw [hmain d hd] at halias
      cases halias
    | command c before after =>
      have hmem : name ∈ d.spellings := List.mem_cons_of_mem _ halias
      have hmem' : d.long ∈ d.spellings := List.mem_cons_self
      obtain ⟨hne, hequals⟩ := plain_spellings (some c) d hd name hmem
      obtain ⟨hne', hequals'⟩ := plain_spellings (some c) d hd d.long hmem'
      have hstep : after.step c.spec (optionWord name value) =
          after.step c.spec (optionWord d.long value) := by
        rw [step_optionWord hp hne hequals, step_optionWord hp hne' hequals', State.readLong,
          State.readLong, lookup_spelling c d hd name hmem, lookup_spelling c d hd d.long hmem']
      exact congrArg (fun x => (x.map (Progress.command c before)).mapError UsageError.kind) hstep
    | help named =>
      rw [hmain d hd] at halias
      cases halias
  undeclared p hp :=
    ⟨p.undeclared, fun _ hne hequals hname value => step_undeclared hp hne hequals hname value⟩

/-! ## The same readings -/

/-- `readCommand` settles what is pending at the end, which a reader does as it finishes. -/
theorem foldlM_command (c : Subcommand) (before after : State) (words : List String) :
    words.foldlM Invocation.reader.step (.command c before after) >>= Invocation.reader.finish =
      (readCommand c.spec words after >>= fun after => do
        let command ← Command.ofState c after
        let before ← before.settle
        return ⟨after.value? .output <|> before.value? .output,
          before.has .verbose || after.has .verbose, command⟩).mapError UsageError.kind := by
  induction words generalizing after with
  | nil => rfl
  | cons word words ih =>
    have hstep : Invocation.reader.step (.command c before after) word =
        ((after.step c.spec word).map (Progress.command c before)).mapError UsageError.kind := rfl
    rw [List.foldlM_cons, hstep, readCommand]
    cases after.step c.spec word with
    | error e => rfl
    | ok t => exact ih t

theorem foldlM_help (words : List String) :
    words.foldlM Invocation.reader.step (.help false) >>= Invocation.reader.finish =
      .error (helpOn words).kind := by
  have hnamed : ∀ word (words : List String),
      (word :: words).foldlM Invocation.reader.step (.help true) >>= Invocation.reader.finish =
        .error .invalidSubcommand := fun _ _ => rfl
  cases words with
  | nil => rfl
  | cons word words =>
    have hstep : Invocation.reader.step (.help false) word =
        ((Progress.help false).step word).mapError UsageError.kind := rfl
    rw [List.foldlM_cons, hstep, Progress.step]
    cases words with
    | nil =>
      rw [helpOn]
      split <;> rfl
    | cons word' words =>
      split
      · exact hnamed word' words
      · rfl

theorem foldlM_main (words : List String) (s : State) :
    words.foldlM Invocation.reader.step (.main s) >>= Invocation.reader.finish =
      (readMain words s >>= fun r => match r with
        | (s, none) => do
          let s ← s.settle
          .error (if s.given.isEmpty then .nothingGiven else .missingCommand)
        | (before, some (c, rest)) => do
          let after ← readCommand c.spec rest {}
          let command ← Command.ofState c after
          let before ← before.settle
          return ⟨after.value? .output <|> before.value? .output,
            before.has .verbose || after.has .verbose, command⟩).mapError UsageError.kind := by
  induction words generalizing s with
  | nil => rfl
  | cons word words ih =>
    have hstep : Invocation.reader.step (.main s) word =
        ((Progress.main s).step word).mapError UsageError.kind := rfl
    rw [List.foldlM_cons, hstep, Progress.step]
    cases hread : isRead s word with
    | true =>
      rw [readMain_of_isRead hread, if_pos rfl]
      cases s.step mainSpec word with
      | error e => rfl
      | ok t => exact ih t
    | false =>
      rw [readMain_of_not_isRead hread, if_neg Bool.false_ne_true, commandAt]
      cases Subcommand.ofName? word with
      | none => exact foldlM_help words
      | some c => exact foldlM_command c s {} words

/-- The reader of the program gives what is parsed, or the kind of the fault. -/
theorem read_reader (args : List String) :
    Invocation.reader.read args = (Invocation.parse args).mapError UsageError.kind :=
  foldlM_main args {}

/-- What a run tells of a fault does not show how a word was spelled. -/
theorem refuse_eq_of_kind {e e' : UsageError} (h : e.kind = e'.kind) (fs : FileSystem) :
    refuse fs e = refuse fs e' := by
  cases e <;> cases e' <;> first | rfl | cases h

/-- Runs that are asked for under old spellings and under new ones end the same. -/
theorem run_respells {args args' : List String} (h : Respells args args') (fs : FileSystem)
    (stdin : ByteArray) : run args fs stdin = run args' fs stdin := by
  have hread := read_respells readsDeclared_reader h
  rw [read_reader, read_reader] at hread
  rw [run, run]
  generalize Invocation.parse args = x at hread
  generalize Invocation.parse args' = y at hread
  cases x <;> cases y
  · exact refuse_eq_of_kind (Except.error.inj hread) fs
  · cases hread
  · cases hread
  · cases hread
    rfl

/-- Options of one command under old and new spellings, one of them with a value that has an equals
sign in it, and behind the escape an argument that only looks like an option. -/
def olderWords : List String :=
  ["-v", "java", "--emit_c", "--jni_header", "Api.h", "--cql_header=a=b.h", "--", "--emit_c"]

/-- The same words with two of the options spelled anew. -/
def newerWords : List String :=
  ["-v", "java", "--emit-c", "--jni_header", "Api.h", "--cql-header=a=b.h", "--", "--emit_c"]

theorem read_respells_olderWords :
    Invocation.reader.ReadsDeclared ∧ Respells olderWords newerWords ∧
      Invocation.reader.read olderWords = .ok ⟨none, true,
        .java "--emit_c" "default_package" "default_class" "Api.h" "a=b.h" true⟩ ∧
      Invocation.reader.read olderWords = Invocation.reader.read newerWords := by
  have hemitC : RespellsWord "--emit_c" "--emit-c" :=
    @RespellsWord.option "emit_c" "emit-c" (by decide) none
  have hcqlHeader : RespellsWord "--cql_header=a=b.h" "--cql-header=a=b.h" :=
    @RespellsWord.option "cql_header" "cql-header" (by decide) (some "a=b.h")
  have h : Respells olderWords newerWords :=
    .keep (by decide) <| .keep (by decide) <| .respell hemitC <| .keep (by decide) <|
      .keep (by decide) <| .respell hcqlHeader <| .escape _
  have hparse : Invocation.parse olderWords = .ok ⟨none, true,
      .java "--emit_c" "default_package" "default_class" "Api.h" "a=b.h" true⟩ := by
    decide +kernel
  refine ⟨readsDeclared_reader, h, ?_, read_respells readsDeclared_reader h⟩
  rw [read_reader, hparse]
  rfl

/-- Behind the escape a word is an argument, and another one is another argument. -/
example :
    Invocation.parse ["java", "--", "--emit_c"] ≠ Invocation.parse ["java", "--", "--emit-c"] := by
  decide +kernel

end CqlGlue.CommandLine
