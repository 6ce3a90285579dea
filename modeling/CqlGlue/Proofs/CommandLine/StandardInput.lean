import CqlGlue.Proofs.CommandLine.Faithful
import Mathlib.Data.Option.Basic

/-!
# A hyphen for the standard input

Where a command names its input, a hyphen stands for the standard input. A run that reads a text
there ends like a run that reads it from a file, but for the path in the message of a schema that
is no good and in the banner of an extension. The editor grammar is the exception: its listing is
always a file, be it one whose name is a hyphen.

## Main definitions
* `Command.withInput` gives a command another input.
* `Outcome.Alike` says that two runs end alike but for a path that they quote.

## Main statements
* `alike_run_iff`: where runs that read a text from either place end alike.
-/

namespace CqlGlue.CommandLine

/-! ## What is compared -/

/-- A command with another input. -/
def Command.withInput (path : String) : Command → Command
  | treeSitter _ config => treeSitter path config
  | inline _ words => inline (some path) words
  | objc _ cqlHeader => objc path cqlHeader
  | objcFull _ header legacy emitImpl => objcFull path header legacy emitImpl
  | csharp _ className cqlHeader emitC => csharp path className cqlHeader emitC
  | java _ package className jniHeader cqlHeader emitC =>
    java path package className jniHeader cqlHeader emitC
  | sqliteExt _ cqlHeader namePrefix verbosity => sqliteExt path cqlHeader namePrefix verbosity

/-- The texts of a command for the standard input and for a path are the same. An extension has
its source in the banner line. -/
def Command.SameText (path : String) : Command → String → String → Prop
  | sqliteExt .., text, text' => ∃ rest, text = "// Generated by cqlgen from " ++ "-" ++ rest ∧
      text' = "// Generated by cqlgen from " ++ path ++ rest
  | _, text, text' => text = text'

/-- Two failures have the same message but for the source of the text. -/
def Failure.SameMessage (path : String) (e e' : Failure) : Prop :=
  e.message = e'.message ∨ ∃ before after, e.message = before ++ "<stdin>" ++ after ∧
    e'.message = before ++ path ++ after

/-- A run of a command on the standard input and a run of it on a file end alike. -/
structure Outcome.Alike (c : Command) (path : String) (fs : FileSystem) (o o' : Outcome) :
    Prop where
  exit : o.exit = o'.exit
  stdout : o.stdout = o'.stdout ∨ c.SameText path o.stdout o'.stdout
  failure : Option.Rel (Failure.SameMessage path) o.failure o'.failure
  files : o.files = o'.files ∨ ∃ output text text', c.SameText path text text' ∧
    fs.write output text.toUTF8 = .ok o.files ∧ fs.write output text'.toUTF8 = .ok o'.files

variable {c : Command} {fs : FileSystem} {stdin : ByteArray} {path text text' : String}
  {i i' : Invocation} {output : Option String} {verbose : Bool} {args args' : List String}

theorem Failure.SameMessage.refl (path : String) (e : Failure) : e.SameMessage path e := .inl rfl

/-! ## Delivering -/

/-- Whether a file can be written does not depend on what is written. -/
theorem FileSystem.write_error {content content' : ByteArray} {fault : FileFault}
    (h : fs.write path content = .error fault) : fs.write path content' = .error fault := by
  rw [FileSystem.write] at h ⊢
  cases hopened : fs.openFile path with
  | error e =>
    rw [hopened] at h
    exact h
  | ok opened =>
    rw [hopened] at h
    cases h

theorem alike_deliver (h : c.SameText path text text') (houtput : i.output = i'.output)
    (events events' : List Event) :
    Outcome.Alike c path fs (deliver fs i text events) (deliver fs i' text' events') := by
  cases houtput' : i'.output with
  | none =>
    rw [houtput'] at houtput
    rw [deliver_of_none houtput, deliver_of_none houtput']
    exact ⟨rfl, .inr h, .none, .inl rfl⟩
  | some output =>
    rw [houtput'] at houtput
    cases hwrite : fs.write output text.toUTF8 with
    | error fault =>
      rw [deliver_of_error houtput hwrite,
        deliver_of_error houtput' (FileSystem.write_error hwrite)]
      exact ⟨rfl, .inl rfl, .some (.refl path _), .inl rfl⟩
    | ok written =>
      cases hwrite' : fs.write output text'.toUTF8 with
      | error fault =>
        rw [FileSystem.write_error hwrite'] at hwrite
        cases hwrite
      | ok written' =>
        rw [deliver_of_ok houtput hwrite, deliver_of_ok houtput' hwrite']
        exact ⟨rfl, .inl rfl, .none, .inr ⟨output, text, text', h, hwrite, hwrite'⟩⟩

/-- Where a command has the same text for both sources, its outcomes are alike when they are equal
but for the events. -/
theorem alike_deliver_iff (hsame : ∀ t t', c.SameText path t t' ↔ t = t')
    (houtput : i.output = output) (houtput' : i'.output = output) (events events' : List Event) :
    Outcome.Alike c path fs (deliver fs i text events) (deliver fs i' text' events') ↔
      deliver fs i text [] = deliver fs i text' [] := by
  cases output with
  | none =>
    rw [deliver_of_none houtput, deliver_of_none houtput', deliver_of_none houtput,
      deliver_of_none houtput]
    constructor
    · intro h
      have htext : text = text' := h.stdout.elim id (hsame _ _).1
      rw [htext]
    · intro h
      cases h
      exact ⟨rfl, .inl rfl, .none, .inl rfl⟩
  | some output =>
    cases hwrite : fs.write output text.toUTF8 with
    | error fault =>
      have hwrite' : fs.write output text'.toUTF8 = .error fault := FileSystem.write_error hwrite
      rw [deliver_of_error houtput hwrite, deliver_of_error houtput' hwrite',
        deliver_of_error houtput hwrite, deliver_of_error houtput hwrite']
      exact iff_of_true ⟨rfl, .inl rfl, .some (.refl path _), .inl rfl⟩ rfl
    | ok written =>
      cases hwrite' : fs.write output text'.toUTF8 with
      | error fault =>
        rw [FileSystem.write_error hwrite'] at hwrite
        cases hwrite
      | ok written' =>
        rw [deliver_of_ok houtput hwrite, deliver_of_ok houtput' hwrite',
          deliver_of_ok houtput hwrite, deliver_of_ok houtput hwrite']
        constructor
        · intro h
          have hfiles : written = written' := by
            rcases h.files with hfiles | ⟨p, t, t', ht, hfiles, hfiles'⟩
            · exact hfiles
            · rw [(hsame t t').1 ht, hfiles'] at hfiles
              cases hfiles
              rfl
          rw [hfiles]
        · intro h
          cases h
          exact ⟨rfl, .inl rfl, .none, .inl rfl⟩

/-! ## Generating -/

theorem value_generateGrammar (inputs : Inputs) (grammar : String) (config : Option String) :
    (generateGrammar inputs grammar config).value = do
      let c ← inputs.config config
      let text ← inputs.readFile grammar
      return EditorGrammar.generate c (Listing.Grammar.parse text) := by
  rw [generateGrammar]
  cases inputs.config config with
  | error e => rfl
  | ok c =>
    rw [ok_bind]
    cases inputs.readFile grammar <;> rfl

theorem value_generateBindings (inputs : Inputs) (path : String) (target : Target) :
    (generateBindings inputs path target).value = (inputs.schema path).map target.text := by
  rw [generateBindings]
  cases inputs.schema path <;> rfl

/-- What is generated for the standard input and for a path. -/
inductive AlikeValues (c : Command) (path : String) :
    Except Failure String → Except Failure String → Prop
  | ok {text text' : String} (h : c.SameText path text text') :
    AlikeValues c path (.ok text) (.ok text')
  | error {e e' : Failure} (h : e.SameMessage path e') : AlikeValues c path (.error e) (.error e')

theorem alike_run {stdin' : ByteArray}
    (hargs : Invocation.parse args = .ok ⟨output, verbose, c.withInput "-"⟩)
    (hargs' : Invocation.parse args' = .ok ⟨output, verbose, c.withInput path⟩)
    (h : AlikeValues c path (generate (.ofFiles fs stdin) (c.withInput "-")).value
      (generate (.ofFiles fs stdin') (c.withInput path)).value) :
    Outcome.Alike c path fs (run args fs stdin) (run args' fs stdin') := by
  generalize hvalue : (generate (.ofFiles fs stdin) (c.withInput "-")).value = v at h
  generalize hvalue' : (generate (.ofFiles fs stdin') (c.withInput path)).value = v' at h
  cases h with
  | ok htext =>
    rw [run_of_generated hargs hvalue, run_of_generated hargs' hvalue']
    exact alike_deliver htext rfl _ _
  | error hmessage =>
    rw [run_of_failed hargs hvalue, run_of_failed hargs' hvalue']
    exact ⟨rfl, .inl rfl, .some hmessage, .inl rfl⟩

/-- A text is had from a file as from the standard input. -/
theorem file_ofFiles (hread : fs.read path = .ok text.toUTF8) :
    (Inputs.ofFiles fs stdin).file path = .ok text := by
  change (fs.read path).bind textOf = _
  rw [hread]
  exact textOf_toUTF8 text

theorem standardInput_ofFiles (fs : FileSystem) (text : String) :
    (Inputs.ofFiles fs text.toUTF8).standardInput = .ok text := textOf_toUTF8 text

theorem ofPath_of_ne (h : path ≠ "-") : Source.ofPath path = .file path := by
  rw [Source.ofPath, if_neg (by simpa using h)]

theorem schema_standardInput (fs : FileSystem) (text : String) :
    (Inputs.ofFiles fs text.toUTF8).schema "-" =
      (Schema.parse text "<stdin>").mapError .schema := by
  rw [Inputs.schema, show Source.ofPath "-" = .standardInput from rfl]
  simp only [Inputs.read, standardInput_ofFiles]
  rfl

theorem schema_file (hpath : path ≠ "-") (hread : fs.read path = .ok text.toUTF8) :
    (Inputs.ofFiles fs stdin).schema path = (Schema.parse text path).mapError .schema := by
  rw [Inputs.schema, ofPath_of_ne hpath]
  simp only [Inputs.readFile, file_ofFiles hread]
  rfl

theorem message_schema (e : SchemaError) :
    (Failure.schema e).message = "invalid CQL schema " ++ e.path ++ (": " ++ e.fault.message) :=
  String.append_assoc

/-- A schema is read alike from either place. -/
theorem alike_generateBindings (hpath : path ≠ "-") (hread : fs.read path = .ok text.toUTF8)
    {target target' : Target} (h : ∀ s, c.SameText path (target.text s) (target'.text s)) :
    AlikeValues c path (generateBindings (.ofFiles fs text.toUTF8) "-" target).value
      (generateBindings (.ofFiles fs stdin) path target').value := by
  rw [value_generateBindings, value_generateBindings, schema_standardInput,
    schema_file hpath hread, Schema.parse, Schema.parse]
  cases Json.Decoder.decode (Json.Decoder.record schemaShape) text with
  | ok s => exact .ok (h s)
  | error fault =>
    exact .error (.inr ⟨"invalid CQL schema ", ": " ++ fault.message,
      message_schema ⟨"<stdin>", fault⟩, message_schema ⟨path, fault⟩⟩)

/-- A listing to inline is read alike from either place. -/
theorem alike_inlineListing (hpath : path ≠ "-") (hread : fs.read path = .ok text.toUTF8)
    (hsame : ∀ t, c.SameText path t t) (words : Option (List String)) :
    AlikeValues c path (inlineListing (.ofFiles fs text.toUTF8) (some "-") words).value
      (inlineListing (.ofFiles fs stdin) (some path) words).value := by
  have hstandard : (Inputs.ofFiles fs text.toUTF8).read .standardInput = .ok text := by
    rw [Inputs.read, standardInput_ofFiles]
    rfl
  have hfile : (Inputs.ofFiles fs stdin).read (.file path) = .ok text := by
    simp only [Inputs.read, file_ofFiles hread]
    rfl
  simp only [inlineListing, Option.map_some, Option.getD_some, ofPath_of_ne hpath, hfile,
    show Source.ofPath "-" = .standardInput from rfl, hstandard]
  generalize Listing.Inliner.run _ text = r
  cases r.value with
  | ok t => exact .ok (hsame t)
  | error e => exact .error (.refl path _)

/-- An extension behind its source. -/
def restText (o : SqliteExtension.Options) (s : Schema) : String :=
  "\n\n" ++ "#ifdef CQL_SQLITE_EXT\n" ++ "#include <sqlite3ext.h>\n" ++
    "SQLITE_EXTENSION_INIT1\n" ++ "#endif\n" ++ "#include \"cqlrt.h\"\n" ++
    "#include \"cql_sqlite_extension.h\"\n" ++ "#include \"" ++ o.cqlHeader ++ "\"\n\n" ++
    SqliteExtension.wrappersText o s ++ SqliteExtension.initializerText o s

/-- The source of an extension is in its banner line and nowhere else. -/
theorem text_source (o : SqliteExtension.Options) (source : String) (s : Schema) :
    SqliteExtension.text { o with source := source } s =
      "// Generated by cqlgen from " ++ source ++ restText o s := by
  have hwrappers : SqliteExtension.wrappersText { o with source := source } s =
      SqliteExtension.wrappersText o s := rfl
  have hregistrations : SqliteExtension.registrations { o with source := source } s =
      SqliteExtension.registrations o s := rfl
  have hinitializer : SqliteExtension.initializerText { o with source := source } s =
      SqliteExtension.initializerText o s := by
    unfold SqliteExtension.initializerText
    rw [hregistrations]
  unfold SqliteExtension.text restText
  rw [hwrappers, hinitializer]
  simp only [String.append_assoc]

theorem alike_generate (hpath : path ≠ "-") (hread : fs.read path = .ok text.toUTF8)
    (hc : ∀ grammar config, c ≠ .treeSitter grammar config) :
    AlikeValues c path (generate (.ofFiles fs text.toUTF8) (c.withInput "-")).value
      (generate (.ofFiles fs stdin) (c.withInput path)).value := by
  cases c with
  | treeSitter grammar config => exact absurd rfl (hc grammar config)
  | inline input words =>
    have hsame : ∀ t, (Command.inline input words).SameText path t t := fun _ => rfl
    exact alike_inlineListing hpath hread hsame words
  | sqliteExt schema cqlHeader namePrefix verbosity =>
    refine alike_generateBindings hpath hread fun s => ?_
    let o : SqliteExtension.Options := ⟨schema, cqlHeader, namePrefix, verbosity⟩
    exact ⟨restText o s, text_source o "-" s, text_source o path s⟩
  | objc schema cqlHeader => exact alike_generateBindings hpath hread fun _ => rfl
  | objcFull schema header legacy emitImpl => exact alike_generateBindings hpath hread fun _ => rfl
  | csharp schema className cqlHeader emitC =>
    exact alike_generateBindings hpath hread fun _ => rfl
  | java schema package className jniHeader cqlHeader emitC =>
    exact alike_generateBindings hpath hread fun _ => rfl

/-! ## The editor grammar -/

theorem generate_treeSitter_of_error {inputs : Inputs} {grammar : String} {config : Option String}
    {e : Failure} (h : inputs.config config = .error e) :
    (generate inputs (.treeSitter grammar config)).value = .error e := by
  rw [generate, value_generateGrammar, h]
  rfl

theorem generate_treeSitter_of_ok {inputs : Inputs} (grammar : String) {config : Option String}
    {settings : EditorGrammar.Config} (h : inputs.config config = .ok settings) :
    (generate inputs (.treeSitter grammar config)).value =
      (inputs.readFile grammar).map
        fun text => EditorGrammar.generate settings (Listing.Grammar.parse text) := by
  rw [generate, value_generateGrammar, h, ok_bind]
  cases inputs.readFile grammar <;> rfl

/-- A file that cannot be read and one that cannot be written are not reported alike. -/
theorem not_sameMessage (source output : String) (fault fault' : FileFault) :
    ¬(Failure.unreadableFile source fault).SameMessage path (.unwritable output fault') := by
  have hread : ((Failure.unreadableFile source fault).message).toList.head? = some 'I' := by
    change ("I/O error reading " ++ source ++ ": " ++ fault.message).toList.head? = _
    rw [String.append_assoc, String.append_assoc, String.toList_append]
    rfl
  have hwrite : ((Failure.unwritable output fault').message).toList.head? = some 'w' := by
    change ("writing " ++ output ++ "\n\nCaused by:\n    " ++ fault'.message).toList.head? = _
    rw [String.append_assoc, String.append_assoc, String.toList_append]
    rfl
  rintro (hsame | ⟨before, after, hbefore, hafter⟩)
  · rw [hsame, hwrite] at hread
    cases hread
  · rw [hbefore, String.append_assoc, String.toList_append] at hread
    rw [hafter, String.append_assoc, String.toList_append] at hwrite
    cases hlist : before.toList with
    | nil =>
      rw [hlist, List.nil_append, String.toList_append] at hread
      cases hread
    | cons x xs =>
      rw [hlist] at hread hwrite
      cases hread
      cases hwrite

/-- A run that could not read its listing does not end like one that has a text to deliver. -/
theorem not_alike_unreadableFile {source : String} {fault : FileFault} {files : FileSystem}
    {events events' : List Event} {asked : Option Bool} :
    ¬Outcome.Alike c path fs ⟨1, "", some (.unreadableFile source fault), files, asked, events⟩
      (deliver fs i text events') := by
  intro h
  cases houtput : i.output with
  | none =>
    rw [deliver_of_none houtput] at h
    cases h.exit
  | some output =>
    cases hwrite : fs.write output text.toUTF8 with
    | ok written =>
      rw [deliver_of_ok houtput hwrite] at h
      cases h.exit
    | error fault' =>
      rw [deliver_of_error houtput hwrite] at h
      obtain ⟨hmessage⟩ := h.failure
      exact not_sameMessage source output fault fault' hmessage

/-- The runs of the editor grammar. The configuration is the same in both. -/
theorem alike_run_treeSitter_iff {grammar : String} {config : Option String}
    (hread : fs.read path = .ok text.toUTF8)
    (hargs : Invocation.parse args = .ok ⟨output, verbose, .treeSitter "-" config⟩)
    (hargs' : Invocation.parse args' = .ok ⟨output, verbose, .treeSitter path config⟩) :
    Outcome.Alike (.treeSitter grammar config) path fs (run args fs text.toUTF8)
        (run args' fs stdin) ↔
      (∃ e, (Inputs.ofFiles fs stdin).config config = .error e) ∨
      ∃ settings other, (Inputs.ofFiles fs stdin).config config = .ok settings ∧
        (Inputs.ofFiles fs stdin).file "-" = .ok other ∧
        deliver fs ⟨output, verbose, .treeSitter grammar config⟩
            (EditorGrammar.generate settings (Listing.Grammar.parse other)) [] =
          deliver fs ⟨output, verbose, .treeSitter grammar config⟩
            (EditorGrammar.generate settings (Listing.Grammar.parse text)) [] := by
  have hconfig : (Inputs.ofFiles fs text.toUTF8).config config =
      (Inputs.ofFiles fs stdin).config config := by
    cases config <;> rfl
  cases hsettings : (Inputs.ofFiles fs stdin).config config with
  | error e =>
    rw [hsettings] at hconfig
    rw [run_of_failed hargs (generate_treeSitter_of_error hconfig),
      run_of_failed hargs' (generate_treeSitter_of_error hsettings)]
    exact iff_of_true ⟨rfl, .inl rfl, .some (.refl path e), .inl rfl⟩ (.inl ⟨e, rfl⟩)
  | ok settings =>
    rw [hsettings] at hconfig
    have hvalue := generate_treeSitter_of_ok "-" hconfig
    have hvalue' := generate_treeSitter_of_ok path hsettings
    rw [Inputs.readFile, file_ofFiles hread] at hvalue'
    rw [run_of_generated hargs' hvalue']
    cases hother : (Inputs.ofFiles fs stdin).file "-" with
    | error fault =>
      have hfailed : (Inputs.ofFiles fs text.toUTF8).readFile "-" =
        .error (.unreadableFile "-" fault) := congrArg (Except.mapError _) hother
      rw [hfailed] at hvalue
      rw [run_of_failed hargs hvalue]
      refine iff_of_false not_alike_unreadableFile ?_
      rintro (⟨e, he⟩ | ⟨settings', other, -, hfile, -⟩)
      · cases he
      · cases hfile
    | ok other =>
      have hread' : (Inputs.ofFiles fs text.toUTF8).readFile "-" = .ok other :=
        congrArg (Except.mapError _) hother
      rw [hread'] at hvalue
      rw [run_of_generated hargs hvalue]
      refine (alike_deliver_iff (fun _ _ => .rfl) rfl rfl _ _).trans ?_
      constructor
      · intro h
        exact .inr ⟨settings, other, rfl, rfl, h⟩
      · rintro (⟨e, he⟩ | ⟨settings', other', hsettings', hfile, hdeliver⟩)
        · cases he
        · cases hsettings'
          cases hfile
          exact hdeliver

/-- A run that reads its text from the standard input ends like one that reads it from a file, for
every command but the editor grammar. That reads a file called like a hyphen, so its runs end alike
only where it gets no configuration or that file gives the same grammar. -/
theorem alike_run_iff (hpath : path ≠ "-") (hread : fs.read path = .ok text.toUTF8)
    (hargs : Invocation.parse args = .ok ⟨output, verbose, c.withInput "-"⟩)
    (hargs' : Invocation.parse args' = .ok ⟨output, verbose, c.withInput path⟩) :
    Outcome.Alike c path fs (run args fs text.toUTF8) (run args' fs stdin) ↔
      ∀ grammar config, c = .treeSitter grammar config →
        (∃ e, (Inputs.ofFiles fs stdin).config config = .error e) ∨
        ∃ settings other, (Inputs.ofFiles fs stdin).config config = .ok settings ∧
          (Inputs.ofFiles fs stdin).file "-" = .ok other ∧
          deliver fs ⟨output, verbose, c⟩
              (EditorGrammar.generate settings (Listing.Grammar.parse other)) [] =
            deliver fs ⟨output, verbose, c⟩
              (EditorGrammar.generate settings (Listing.Grammar.parse text)) [] := by
  by_cases hc : ∃ grammar config, c = .treeSitter grammar config
  · obtain ⟨grammar, config, rfl⟩ := hc
    exact (alike_run_treeSitter_iff hread hargs hargs').trans
      ⟨fun h _ _ hsame => by cases hsame; exact h, fun h => h grammar config rfl⟩
  · have hother : ∀ grammar config, c ≠ .treeSitter grammar config :=
      fun grammar config h => hc ⟨grammar, config, h⟩
    have halike : Outcome.Alike c path fs (run args fs text.toUTF8) (run args' fs stdin) :=
      alike_run hargs hargs' (alike_generate hpath hread hother)
    exact iff_of_true halike fun grammar config h => absurd h (hother grammar config)

/-- A listing can be inlined from the standard input, but no editor grammar is made from there. -/
theorem not_alike_run_treeSitter :
    Outcome.Alike (.inline none none) "g.txt" listingFiles
      (run ["inline", "-"] listingFiles "a ::= b\nb ::= 'x'\n".toUTF8)
      (run ["inline", "g.txt"] listingFiles .empty) ∧
    (run ["tree-sitter", "-"] listingFiles "a ::= b\nb ::= 'x'\n".toUTF8).exit = 1 ∧
    (run ["tree-sitter", "g.txt"] listingFiles .empty).exit = 0 ∧
    ¬Outcome.Alike (.treeSitter "g.txt" none) "g.txt" listingFiles
      (run ["tree-sitter", "-"] listingFiles "a ::= b\nb ::= 'x'\n".toUTF8)
      (run ["tree-sitter", "g.txt"] listingFiles .empty) := by
  have hread : listingFiles.read "g.txt" = .ok "a ::= b\nb ::= 'x'\n".toUTF8 := rfl
  have hfile : (Inputs.ofFiles listingFiles .empty).file "-" = .error .missing := rfl
  have hinline : ∀ path ∈ ["-", "g.txt"], Invocation.parse ["inline", path] =
      .ok ⟨none, false, (Command.inline none none).withInput path⟩ := by decide +kernel
  have hgrammar : ∀ path ∈ ["-", "g.txt"], Invocation.parse ["tree-sitter", path] =
      .ok ⟨none, false, (Command.treeSitter "g.txt" none).withInput path⟩ := by decide +kernel
  have hne : "g.txt" ≠ "-" := by decide
  refine ⟨(alike_run_iff hne hread (hinline "-" (by decide)) (hinline "g.txt" (by decide))).2 nofun,
    by decide +kernel, by decide +kernel, fun h => ?_⟩
  have hcases := (alike_run_iff hne hread (hgrammar "-" (by decide))
    (hgrammar "g.txt" (by decide))).1 h "g.txt" none rfl
  rcases hcases with ⟨e, he⟩ | ⟨settings, other, -, hother, -⟩
  · cases he
  · rw [hfile] at hother
    cases hother

end CqlGlue.CommandLine
