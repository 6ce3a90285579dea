import CqlGlue.Proofs.CommandLine.OutputOption

/-!
# Where the text of a run goes

A run opens its log, reads all it reads before it writes, and writes one text at its very end. So a
run that fails has done nothing but that, and the option for an output path moves the text into the
file even when that file was among the inputs.

## Main statements
* `launch_faithful`: a failed run leaves no trace, and the output path gets just what would have
  been printed.
-/

namespace CqlGlue.CommandLine

variable {args : List String} {fs : FileSystem} {stdin : ByteArray} {filter : Option String}
  {i : Invocation} {path text : String}

/-! ## How runs end -/

theorem run_of_refused {e : UsageError} (h : Invocation.parse args = .error e) :
    run args fs stdin = refuse fs e := by
  rw [run, h]

theorem run_of_failed {e : Failure} (h : Invocation.parse args = .ok i)
    (hvalue : (generate (.ofFiles fs stdin) i.command).value = .error e) :
    run args fs stdin = ⟨1, "", some e, fs, some i.verbose,
      (generate (.ofFiles fs stdin) i.command).events⟩ := by
  rw [run, h]
  simp only [hvalue]

theorem run_of_generated (h : Invocation.parse args = .ok i)
    (hvalue : (generate (.ofFiles fs stdin) i.command).value = .ok text) :
    run args fs stdin =
      deliver fs i text (generate (.ofFiles fs stdin) i.command).events := by
  rw [run, h]
  simp only [hvalue]

theorem deliver_of_none (h : i.output = none) (events : List Event) :
    deliver fs i text events = ⟨0, text, none, fs, some i.verbose, events⟩ := by
  rw [deliver, h]

theorem deliver_of_error {fault : FileFault} (h : i.output = some path)
    (hwrite : fs.write path text.toUTF8 = .error fault) (events : List Event) :
    deliver fs i text events =
      ⟨1, "", some (.unwritable path fault), fs, some i.verbose, events⟩ := by
  rw [deliver, h]
  simp only [hwrite]

theorem deliver_of_ok {written : FileSystem} (h : i.output = some path)
    (hwrite : fs.write path text.toUTF8 = .ok written) (events : List Event) :
    deliver fs i text events =
      ⟨0, "", none, written, some i.verbose, events ++ [.wroteSource path]⟩ := by
  rw [deliver, h]
  simp only [hwrite]

/-- The verbosity is all that the log needs to know of a command line. -/
theorem verbose_run (h : Invocation.parse args = .ok i) :
    (run args fs stdin).verbose = some i.verbose := by
  cases hvalue : (generate (.ofFiles fs stdin) i.command).value with
  | error e => rw [run_of_failed h hvalue]
  | ok text =>
    rw [run_of_generated h hvalue]
    cases houtput : i.output with
    | none => rw [deliver_of_none houtput]
    | some path =>
      cases hwrite : fs.write path text.toUTF8 with
      | error fault => rw [deliver_of_error houtput hwrite]
      | ok written => rw [deliver_of_ok houtput hwrite]

/-! ## Failed runs -/

/-- A run that ended badly has printed nothing and changed no file. -/
def Outcome.LeavesNoTrace (o : Outcome) (fs : FileSystem) : Prop :=
  o.exit ≠ 0 → o.stdout = "" ∧ o.files = fs

theorem leavesNoTrace_refuse (fs : FileSystem) (e : UsageError) :
    (refuse fs e).LeavesNoTrace fs := by
  intro h
  cases e <;> first | exact ⟨rfl, rfl⟩ | exact absurd rfl h

theorem leavesNoTrace_deliver (fs : FileSystem) (i : Invocation) (text : String)
    (events : List Event) : (deliver fs i text events).LeavesNoTrace fs := by
  cases houtput : i.output with
  | none =>
    rw [deliver_of_none houtput]
    exact absurd rfl
  | some path =>
    cases hwrite : fs.write path text.toUTF8 with
    | error fault =>
      rw [deliver_of_error houtput hwrite]
      exact fun _ => ⟨rfl, rfl⟩
    | ok written =>
      rw [deliver_of_ok houtput hwrite]
      exact absurd rfl

theorem leavesNoTrace_run (args : List String) (fs : FileSystem) (stdin : ByteArray) :
    (run args fs stdin).LeavesNoTrace fs := by
  cases hparse : Invocation.parse args with
  | error e =>
    rw [run_of_refused hparse]
    exact leavesNoTrace_refuse fs e
  | ok i =>
    cases hvalue : (generate (.ofFiles fs stdin) i.command).value with
    | error e =>
      rw [run_of_failed hparse hvalue]
      exact fun _ => ⟨rfl, rfl⟩
    | ok text =>
      rw [run_of_generated hparse hvalue]
      exact leavesNoTrace_deliver fs i text _

theorem leavesNoTrace_runLogged (args : List String) (filter : Option String) (fs : FileSystem)
    (stdin : ByteArray) : (runLogged args filter fs stdin).1.LeavesNoTrace fs := by
  rw [runLogged]
  split
  · exact leavesNoTrace_run args fs stdin
  · exact fun _ => ⟨rfl, rfl⟩
  · exact leavesNoTrace_run args fs stdin

/-! ## Runs that succeed -/

/-- The text of a run that succeeds. -/
theorem exists_text_of_exit (hparse : Invocation.parse args = .ok i)
    (hexit : (run args fs stdin).exit = 0) :
    ∃ text, (generate (.ofFiles fs stdin) i.command).value = .ok text := by
  cases hvalue : (generate (.ofFiles fs stdin) i.command).value with
  | ok text => exact ⟨text, rfl⟩
  | error e =>
    rw [run_of_failed hparse hvalue] at hexit
    cases hexit

theorem FileSystem.IsWritable.ne_empty (h : fs.IsWritable path) : path ≠ "" := by
  rintro rfl
  obtain ⟨place, hdestination, -⟩ := h
  obtain ⟨origin, names, name, parent, hstart, -⟩ := exists_of_destination hdestination
  cases names <;> cases hstart

/-- A text goes into the file instead of being printed. -/
theorem run_some_output (but : Option (List String)) {args' : List String}
    (hparse : Invocation.parse args = .ok i)
    (hparse' : Invocation.parse args' = .ok { i with output := some path })
    (hnone : i.output = none) (hexit : (run args fs stdin).exit = 0) (hpath : fs.IsWritable path) :
    (run args' fs stdin).exit = 0 ∧ (run args' fs stdin).stdout = "" ∧
      fs.LeavesOnly but path (run args fs stdin).stdout.toUTF8 (run args' fs stdin).files := by
  obtain ⟨text, hvalue⟩ := exists_text_of_exit hparse hexit
  obtain ⟨written, hwrite, hleaves⟩ := FileSystem.exists_write hpath text.toUTF8
  rw [run_of_generated hparse hvalue, deliver_of_none hnone,
    run_of_generated hparse' hvalue, deliver_of_ok rfl hwrite]
  exact ⟨rfl, rfl, hleaves⟩

/-- A run is broken off for its verbosity and the filter alone. -/
theorem runLogged_of_exit {args' : List String} (hparse : Invocation.parse args = .ok i)
    (hparse' : Invocation.parse args' = .ok { i with output := some path })
    (hexit : (runLogged args filter fs stdin).1.exit = 0) :
    (runLogged args filter fs stdin).1 = run args fs stdin ∧
      (runLogged args' filter fs stdin).1 = run args' fs stdin := by
  rw [runLogged, verbose_run hparse, Option.map_some] at hexit ⊢
  rw [runLogged, verbose_run hparse', Option.map_some]
  cases hchosen : Filter.choose filter i.verbose with
  | some f => exact ⟨rfl, rfl⟩
  | none =>
    rw [hchosen] at hexit
    cases hexit

/-! ## Runs with a log -/

variable {setting : LogSetting} {args' : List String}

theorem launch_of_refused {e : UsageError} (h : Invocation.parse args = .error e) :
    launch setting args fs stdin = (refuse fs e, []) := by
  rw [launch, h]

/-- A run without a log. -/
theorem launch_of_none (h : Invocation.parse args = .ok i) (hlog : (setting.openLog fs).2 = none) :
    (launch setting args fs stdin).1 = run args (setting.openLog fs).1 stdin := by
  rw [launch, h]
  generalize setting.openLog fs = opened at hlog ⊢
  obtain ⟨opened, log⟩ := opened
  cases hlog
  rfl

/-- A run with a log, whose lines are put there when it has ended. -/
theorem launch_of_some {place : List String} (stdin : ByteArray)
    (h : Invocation.parse args = .ok i) (hlog : (setting.openLog fs).2 = some place) :
    ∃ more, (launch setting args fs stdin).1 =
      { (runLogged args setting.filter (setting.openLog fs).1 stdin).1 with
        files := (runLogged args setting.filter (setting.openLog fs).1 stdin).1.files.append place
          more } := by
  rw [launch, h]
  generalize setting.openLog fs = opened at hlog ⊢
  obtain ⟨opened, log⟩ := opened
  cases hlog
  exact ⟨_, rfl⟩

/-- A failed run has printed nothing, and no file but its log has changed. -/
theorem keepsFiles_launch (setting : LogSetting) (args : List String) (fs : FileSystem)
    (stdin : ByteArray) (hexit : (launch setting args fs stdin).1.exit ≠ 0) :
    (launch setting args fs stdin).1.stdout = "" ∧
      fs.KeepsFiles (setting.openLog fs).2 (launch setting args fs stdin).1.files := by
  cases hparse : Invocation.parse args with
  | error e =>
    rw [launch_of_refused hparse] at hexit ⊢
    obtain ⟨hstdout, hfiles⟩ := leavesNoTrace_refuse fs e hexit
    rw [hfiles]
    exact ⟨hstdout, .refl fs⟩
  | ok i =>
    have hopened := keepsFiles_openLog setting fs
    cases hlog : (setting.openLog fs).2 with
    | none =>
      rw [hlog] at hopened
      rw [launch_of_none hparse hlog] at hexit ⊢
      obtain ⟨hstdout, hfiles⟩ := leavesNoTrace_run _ _ _ hexit
      rw [hfiles]
      exact ⟨hstdout, hopened⟩
    | some place =>
      rw [hlog] at hopened
      obtain ⟨more, hlaunch⟩ := launch_of_some stdin hparse hlog
      rw [hlaunch] at hexit ⊢
      obtain ⟨hstdout, hfiles⟩ := leavesNoTrace_runLogged _ _ _ _ hexit
      dsimp only
      rw [hfiles]
      exact ⟨hstdout, hopened.trans (FileSystem.keepsFiles_append _ place more)⟩

/-- The option for an output path moves the text of a run with a log as it does without. -/
theorem launch_some_output (hparse : Invocation.parse args = .ok i)
    (hparse' : Invocation.parse args' = .ok { i with output := some path })
    (hnone : i.output = none) (hexit : (launch setting args fs stdin).1.exit = 0)
    (hpath : (setting.openLog fs).1.IsWritable path)
    (hother : ∀ place, (setting.openLog fs).1.destination path = .ok place →
      (setting.openLog fs).2 ≠ some place) :
    (launch setting args' fs stdin).1.exit = 0 ∧ (launch setting args' fs stdin).1.stdout = "" ∧
      (setting.openLog fs).1.LeavesOnly (setting.openLog fs).2 path
        (launch setting args fs stdin).1.stdout.toUTF8 (launch setting args' fs stdin).1.files := by
  cases hlog : (setting.openLog fs).2 with
  | none =>
    rw [launch_of_none hparse hlog] at hexit ⊢
    rw [launch_of_none hparse' hlog]
    exact run_some_output none hparse hparse' hnone hexit hpath
  | some place =>
    obtain ⟨more, hlaunch⟩ := launch_of_some stdin hparse hlog
    obtain ⟨more', hlaunch'⟩ := launch_of_some stdin hparse' hlog
    rw [hlaunch] at hexit ⊢
    rw [hlaunch']
    obtain ⟨hrun, hrun'⟩ := runLogged_of_exit hparse hparse' hexit
    dsimp only at hexit ⊢
    rw [hrun] at hexit ⊢
    rw [hrun']
    obtain ⟨hexit', hstdout, target, hleaves⟩ :=
      run_some_output (some place) hparse hparse' hnone hexit hpath
    have hne : target ≠ place := fun heq => hother target hleaves.before (heq ▸ hlog)
    exact ⟨hexit', hstdout, target, hleaves.append hne more'⟩

/-- A failed run leaves no trace. Where a run succeeds, the option for an output path, put wherever
an option can stand, moves all it prints into the file at that path and touches nothing else but the
log. The path has to be writable once the log was opened, and to be another than that of the log. -/
theorem launch_faithful (setting : LogSetting) (args : List String) (fs : FileSystem)
    (stdin : ByteArray) :
    ((launch setting args fs stdin).1.exit ≠ 0 →
      (launch setting args fs stdin).1.stdout = "" ∧
        fs.KeepsFiles (setting.openLog fs).2 (launch setting args fs stdin).1.files) ∧
    fs.KeepsFiles (setting.openLog fs).2 (setting.openLog fs).1 ∧
    ∀ first last spelled path i, args = first ++ last → TakesOption first →
      SaysOutput path spelled → (setting.openLog fs).1.IsWritable path →
      (∀ place, (setting.openLog fs).1.destination path = .ok place →
        (setting.openLog fs).2 ≠ some place) →
      Invocation.parse args = .ok i → i.output = none →
      (launch setting args fs stdin).1.exit = 0 →
      (launch setting (first ++ spelled ++ last) fs stdin).1.exit = 0 ∧
        (launch setting (first ++ spelled ++ last) fs stdin).1.stdout = "" ∧
        (setting.openLog fs).1.LeavesOnly (setting.openLog fs).2 path
          (launch setting args fs stdin).1.stdout.toUTF8
          (launch setting (first ++ spelled ++ last) fs stdin).1.files := by
  refine ⟨keepsFiles_launch setting args fs stdin, keepsFiles_openLog setting fs, ?_⟩
  rintro first last spelled path i rfl hfirst hspelled hpath hother hparse hnone hexit
  have hparse' := parse_append_output hfirst hspelled hpath.ne_empty hparse hnone
  exact launch_some_output hparse hparse' hnone hexit hpath hother

/-- A directory that holds one listing, next to a device that keeps nothing. -/
def listingFiles : FileSystem where
  nodes := [(["g.txt"], .file "a ::= b\nb ::= 'x'\n".toUTF8), (["dev"], .directory),
    (["dev", "null"], .sink)]
  working := []

/-- No log is asked for, or one in a directory that is not there yet. -/
def logIn (directory : Option String) : LogSetting where
  directory := directory
  filter := none
  process := 7
  timed lines := (String.join lines).toUTF8

theorem openLog_listingFiles : (logIn (some "logs")).openLog listingFiles =
    (⟨(["logs", "cqlgen.7.log"], .file ByteArray.empty) :: (["logs"], .directory) ::
      listingFiles.nodes, []⟩, some ["logs", "cqlgen.7.log"]) := by
  rfl

/-- A listing that is missing, and one that its own inlining replaces, both with a log. -/
theorem launch_faithful_inline :
    ((launch (logIn (some "logs")) ["inline", "h.txt"] listingFiles .empty).1.stdout = "" ∧
      listingFiles.KeepsFiles (some ["logs", "cqlgen.7.log"])
        (launch (logIn (some "logs")) ["inline", "h.txt"] listingFiles .empty).1.files) ∧
    (launch (logIn (some "logs")) ["inline", "g.txt", "--words", "b"] listingFiles
      .empty).1.stdout = "a ::= 'x'\n" ∧
    (launch (logIn (some "logs")) ["inline", "--output", "g.txt", "g.txt", "--words", "b"]
      listingFiles .empty).1.stdout = "" ∧
    ((logIn (some "logs")).openLog listingFiles).1.LeavesOnly (some ["logs", "cqlgen.7.log"])
      "g.txt" "a ::= 'x'\n".toUTF8
      (launch (logIn (some "logs")) ["inline", "--output", "g.txt", "g.txt", "--words", "b"]
        listingFiles .empty).1.files := by
  have htakes : TakesOption ["inline"] :=
    .inr ⟨{}, .inline, [], {}, {}, rfl, rfl, rfl, rfl⟩
  have hsays : SaysOutput "g.txt" ["--output", "g.txt"] := .apart (by decide) (by decide)
  have hwritable : ((logIn (some "logs")).openLog listingFiles).1.IsWritable "g.txt" := by
    rw [openLog_listingFiles]
    exact ⟨["g.txt"], by rfl, .inr ⟨_, _, rfl, rfl, rfl⟩⟩
  have hother : ∀ place, ((logIn (some "logs")).openLog listingFiles).1.destination "g.txt" =
      .ok place → ((logIn (some "logs")).openLog listingFiles).2 ≠ some place := by
    rw [openLog_listingFiles]
    intro place hplace
    cases hplace
    decide
  have hstdout : (launch (logIn (some "logs")) ["inline", "g.txt", "--words", "b"] listingFiles
      .empty).1.stdout = "a ::= 'x'\n" := by decide +kernel
  have hfailed := (launch_faithful (logIn (some "logs")) ["inline", "h.txt"] listingFiles .empty).1
    (by decide +kernel)
  have hmoved := (launch_faithful (logIn (some "logs")) ["inline", "g.txt", "--words", "b"]
    listingFiles .empty).2.2 ["inline"] ["g.txt", "--words", "b"] ["--output", "g.txt"] "g.txt"
    ⟨none, false, .inline (some "g.txt") (some ["b"])⟩ rfl htakes hsays hwritable hother
    (by decide +kernel) rfl (by decide +kernel)
  have hlog : ((logIn (some "logs")).openLog listingFiles).2 = some ["logs", "cqlgen.7.log"] := by
    rw [openLog_listingFiles]
  rw [hlog] at hfailed hmoved
  rw [hstdout] at hmoved
  exact ⟨hfailed, hstdout, hmoved.2⟩

/-- The version is printed in spite of the option, a device keeps nothing of what it gets, a path
that looks like an option is not read when it stands apart, and the directory for the log is made
before anything is written. -/
theorem not_faithful_version :
    ((launch (logIn none) ["--version"] listingFiles .empty).1.exit = 0 ∧
      listingFiles.IsWritable "out.txt" ∧
      (launch (logIn none) ["--output", "out.txt", "--version"] listingFiles .empty).1.stdout ≠ "" ∧
      (launch (logIn none) ["--output", "out.txt", "--version"] listingFiles .empty).1.files =
        listingFiles) ∧
    ((launch (logIn none) ["inline", "g.txt", "--words", "b"] listingFiles .empty).1.stdout ≠ "" ∧
      (launch (logIn none) ["--output", "/dev/null", "inline", "g.txt", "--words", "b"] listingFiles
        .empty).1.exit = 0 ∧
      (launch (logIn none) ["--output", "/dev/null", "inline", "g.txt", "--words", "b"] listingFiles
        .empty).1.files = listingFiles) ∧
    (listingFiles.IsWritable "-x" ∧
      (launch (logIn none) ["--output", "-x", "inline", "g.txt", "--words", "b"] listingFiles
        .empty).1.exit = 2) ∧
    ((launch (logIn (some "logs")) ["inline", "g.txt", "--words", "b"] listingFiles
        .empty).1.exit = 0 ∧
      listingFiles.IsWritable "logs" ∧
      (launch (logIn (some "logs")) ["--output", "logs", "inline", "g.txt", "--words", "b"]
        listingFiles .empty).1.exit = 1) := by
  refine ⟨⟨rfl, ⟨["out.txt"], rfl, .inl ⟨rfl, rfl⟩⟩, by decide, rfl⟩,
    ⟨by decide +kernel, by decide +kernel, ?_⟩, ⟨⟨["-x"], rfl, .inl ⟨rfl, rfl⟩⟩, by decide +kernel⟩,
    by decide +kernel, ⟨["logs"], rfl, .inl ⟨rfl, rfl⟩⟩, by decide +kernel⟩
  rfl

end CqlGlue.CommandLine
