import CqlGlue.Bindings.Target
import CqlGlue.CommandLine.Command
import CqlGlue.CommandLine.FileSystem
import CqlGlue.EditorGrammar.ConfigFile
import CqlGlue.EditorGrammar.Printer
import CqlGlue.Listing.Inline
import CqlGlue.Log.Filter
import CqlGlue.Schema.Reader

/-!
# Runs of the program

A run reads a command line, then what its command names, generates one text, and puts it on the
standard output or into a file. A run that fails gives no text and writes no file.

## Main definitions
* `Failure` lists why a run can fail after its command line was read.
* `generate` makes the text of a command.
* `run` is a whole run over a file system.
* `runLogged` is a whole run that keeps a log.
* `launch` is a whole run in an environment that says where the log goes.
-/

namespace CqlGlue.CommandLine

/-- Where a text is read from. -/
inductive Source where
  | file (path : String)
  | standardInput
  deriving DecidableEq, Repr

/-- The source of a path: a hyphen stands for the standard input. -/
def Source.ofPath (path : String) : Source := if path == "-" then standardInput else file path

/-- Why a run can fail after its command line was read. -/
inductive Failure where
  /-- A listing to inline, or the standard input, cannot be read. -/
  | unreadable (source : Source) (fault : FileFault)
  /-- Any other file cannot be read. -/
  | unreadableFile (path : String) (fault : FileFault)
  | config (path text : String) (error : EditorGrammar.ConfigError)
  | schema (error : SchemaError)
  | inlining (error : Listing.InlineError)
  | unwritable (path : String) (fault : FileFault)

namespace Failure

/-- What the program was doing, and below it why that failed. -/
def withCause (doing cause : String) : String := doing ++ "\n\nCaused by:\n    " ++ cause

/-- The wording of a failure. -/
def message : Failure → String
  | unreadable (.file path) fault => withCause ("reading " ++ path) fault.message
  | unreadable .standardInput fault => withCause "reading stdin" fault.message
  | unreadableFile path fault => "I/O error reading " ++ path ++ ": " ++ fault.message
  | config path text error =>
    "invalid tree-sitter config " ++ path ++ ": " ++ error.report text
  | schema error => error.message
  | inlining error => error.message
  | unwritable path fault => withCause ("writing " ++ path) fault.message

end Failure

/-! ## Generating -/

/-- The sources a command may read. -/
def Command.sources : Command → List Source
  | treeSitter grammar config => .file grammar :: (config.map Source.file).toList
  | inline input _ => [(input.map Source.ofPath).getD .standardInput]
  | objc schema _ | objcFull schema _ _ _ | csharp schema _ _ _ | java schema _ _ _ _ _
  | sqliteExt schema _ _ _ => [.ofPath schema]

/-- What a run can read. -/
structure Inputs where
  file : String → Except FileFault String
  standardInput : Except FileFault String

namespace Inputs

/-- The text of a source, for a command that says what it was doing when it fails. -/
def read (inputs : Inputs) (source : Source) : Except Failure String :=
  (match source with
  | .file path => inputs.file path
  | .standardInput => inputs.standardInput).mapError (.unreadable source)

/-- The text of a file. -/
def readFile (inputs : Inputs) (path : String) : Except Failure String :=
  (inputs.file path).mapError (.unreadableFile path)

/-- The configuration that a path names, or the usual one. -/
def config (inputs : Inputs) : Option String → Except Failure EditorGrammar.Config
  | none => .ok EditorGrammar.Config.standard
  | some path => do
    let text ← inputs.readFile path
    (EditorGrammar.Config.parse text).mapError (.config path text)

/-- The schema that a path names. -/
def schema (inputs : Inputs) (path : String) : Except Failure Schema :=
  match Source.ofPath path with
  | .standardInput => do
    let text ← inputs.read .standardInput
    (Schema.parse text "<stdin>").mapError .schema
  | .file path => do
    let text ← inputs.readFile path
    (Schema.parse text path).mapError .schema

end Inputs

/-- What is generated, with what is reported meanwhile. -/
abbrev Generated := Logged (Except Failure String)

/-- The editor grammar for a listing. The configuration is read first. -/
def generateGrammar (inputs : Inputs) (grammar : String) (config : Option String) : Generated :=
  match inputs.config config with
  | .error e => ⟨.error e, []⟩
  | .ok c =>
    match inputs.readFile grammar with
    | .error e => ⟨.error e, [.generatingGrammar grammar]⟩
    | .ok text =>
      let g := Listing.Grammar.parse text
      ⟨.ok (EditorGrammar.generate c g),
        .generatingGrammar grammar :: EditorGrammar.events c g⟩

/-- The listing with productions inlined. -/
def inlineListing (inputs : Inputs) (input : Option String) (words : Option (List String)) :
    Generated :=
  let inliner := match words with
    | some words => Listing.Inliner.ofWords words
    | none => Listing.Inliner.standard
  match inputs.read ((input.map Source.ofPath).getD .standardInput) with
  | .error e => ⟨.error e, []⟩
  | .ok text =>
    let r := inliner.run text
    ⟨r.value.mapError .inlining, r.events⟩

/-- What is generated from a schema. -/
def generateBindings (inputs : Inputs) (path : String) (target : Target) : Generated :=
  match inputs.schema path with
  | .error e => ⟨.error e, []⟩
  | .ok s => ⟨.ok (target.text s), .loadedSchema path s.procedures.length :: target.events s⟩

/-- The text of a command. -/
def generate (inputs : Inputs) (command : Command) : Generated :=
  match command with
  | .treeSitter grammar config => generateGrammar inputs grammar config
  | .inline input words => inlineListing inputs input words
  | .objc schema cqlHeader => generateBindings inputs schema (.objcShim cqlHeader)
  | .objcFull schema header legacy emitImpl =>
    generateBindings inputs schema
      (if emitImpl then .objcImplementation ⟨header, legacy⟩ else .objcHeader ⟨header, legacy⟩)
  | .csharp schema className cqlHeader emitC =>
    generateBindings inputs schema
      (if emitC then .csharpNative ⟨className, cqlHeader⟩ else .csharpManaged className)
  | .java schema package className jniHeader cqlHeader emitC =>
    generateBindings inputs schema
      (if emitC then .javaNative ⟨package, className, jniHeader, cqlHeader⟩
      else .javaManaged package className)
  | .sqliteExt schema cqlHeader namePrefix verbosity =>
    generateBindings inputs schema
      (.sqliteExtension ⟨schema, cqlHeader, namePrefix, verbosity⟩)

/-! ## Runs -/

/-- The name and the version of the program, as it prints them. -/
def versionText : String := "cqlgen 0.10.0\n"

/-- The exit code of a run that is broken off. -/
def brokenOff : Nat := 101

/-- How a run ends. -/
structure Outcome where
  /-- Zero for success, one for a failure, two for a command line that cannot be read, and
  `brokenOff` for a run that is broken off. -/
  exit : Nat
  /-- What is on the standard output. -/
  stdout : String
  failure : Option Failure
  files : FileSystem
  /-- Whether the command line asked for verbose reports; none when it could not be read. -/
  verbose : Option Bool
  events : List Event

/-- What a run over a file system can read. -/
def Inputs.ofFiles (fs : FileSystem) (stdin : ByteArray) : Inputs where
  file path := (fs.read path).bind textOf
  standardInput := textOf stdin

/-- How a run ends whose command line cannot be read. Help and the version are not faults. -/
def refuse (fs : FileSystem) (e : UsageError) : Outcome :=
  match e with
  | .helpAsked => ⟨0, "", none, fs, none, []⟩
  | .versionAsked => ⟨0, versionText, none, fs, none, []⟩
  | _ => ⟨2, "", none, fs, none, []⟩

/-- Puts a generated text where the command line wants it. -/
def deliver (fs : FileSystem) (i : Invocation) (text : String) (events : List Event) : Outcome :=
  match i.output with
  | none => ⟨0, text, none, fs, some i.verbose, events⟩
  | some path =>
    match fs.write path text.toUTF8 with
    | .error fault => ⟨1, "", some (.unwritable path fault), fs, some i.verbose, events⟩
    | .ok written => ⟨0, "", none, written, some i.verbose, events ++ [.wroteSource path]⟩

/-- A whole run. -/
def run (args : List String) (fs : FileSystem) (stdin : ByteArray) : Outcome :=
  match Invocation.parse args with
  | .error e => refuse fs e
  | .ok i =>
    let g := generate (.ofFiles fs stdin) i.command
    match g.value with
    | .error e => ⟨1, "", some e, fs, some i.verbose, g.events⟩
    | .ok text => deliver fs i text g.events

/-- A whole run that keeps a log, with the lines of the log. Where the filter that is asked for
is cut within a character, the run is broken off before anything is read. -/
def runLogged (args : List String) (filter : Option String) (fs : FileSystem)
    (stdin : ByteArray) : Outcome × List String :=
  let out := run args fs stdin
  match out.verbose.map (Filter.choose filter) with
  | some (some f) => (out, f.lines out.events)
  | some none => (⟨brokenOff, "", none, fs, out.verbose, []⟩, [])
  | none => (out, [])

/-- What the environment says of the log. -/
structure LogSetting where
  /-- The directory for log files. -/
  directory : Option String
  filter : Option String
  /-- The number of the process, which names its log. -/
  process : Nat
  /-- The lines of a log as they are written, each with its time. -/
  timed : List String → ByteArray

namespace LogSetting

/-- The name of the log file. -/
def fileName (setting : LogSetting) : String := "cqlgen." ++ toString setting.process ++ ".log"

/-- The path of the log file in a directory. -/
def path (setting : LogSetting) (directory : String) : String :=
  if directory == "" || directory.toList.getLast? == some '/' then directory ++ setting.fileName
  else directory ++ "/" ++ setting.fileName

/-- Makes the directory for the log and opens the log, with the place where it is. -/
def openLog (setting : LogSetting) (fs : FileSystem) : FileSystem × Option (List String) :=
  match setting.directory with
  | none => (fs, none)
  | some directory =>
    match if directory == "" then (fs, .ok fs.working) else fs.makeDirectories directory with
    | (made, .error _) => (made, none)
    | (made, .ok _) =>
      match made.openFile (setting.path directory) with
      | .error _ => (made, none)
      | .ok (place, opened) => (opened, some place)

end LogSetting

/-- A whole run in an environment, with the lines of its log. The log is opened once the command
line was read, and its lines go to the standard error where that fails. -/
def launch (setting : LogSetting) (args : List String) (fs : FileSystem) (stdin : ByteArray) :
    Outcome × List String :=
  match Invocation.parse args with
  | .error e => (refuse fs e, [])
  | .ok _ =>
    match setting.openLog fs with
    | (opened, some place) =>
      let (out, lines) := runLogged args setting.filter opened stdin
      ({ out with files := out.files.append place (setting.timed lines) }, lines)
    | (opened, none) => (run args opened stdin, [])

end CqlGlue.CommandLine
