import CqlGlue.CommandLine.Run
import CqlGlue.Log.Filter

/-!
# The program

Reads the files that a command line names, generates, and writes. All decisions are made by
`CqlGlue.CommandLine`; here is only what touches the system.

## Main definitions
* `main` is the program.
-/

namespace CqlGlue.CommandLine

/-- Why the system refused an access to a file. Some calls negate the code they give. -/
def FileFault.ofError : IO.Error → FileFault
  | .noFileOrDirectory .. => .missing
  | .inappropriateType _ code _ =>
    if code == 20 || code == 0 - 20 then .notDirectory else .isDirectory
  | e@(.invalidArgument _ code _) =>
    if code == 36 || code == 0 - 36 then .nameTooLong else .other (toString e)
  | e => .other (toString e)

/-- Reads a stream to its end. -/
partial def readAll (stream : IO.FS.Stream) (read : ByteArray) : IO ByteArray := do
  let more ← stream.read 65536
  if more.isEmpty then return read else readAll stream (read ++ more)

/-- The text of a source. -/
def readSource (source : Source) : IO (Except FileFault String) := do
  try
    let content ← match source with
      | .file path => IO.FS.readBinFile path
      | .standardInput => readAll (← IO.getStdin) ByteArray.empty
    return textOf content
  catch e => return .error (.ofError e)

/-- Inputs that have been read. -/
def Inputs.ofRead (read : List (Source × Except FileFault String)) : Inputs where
  file path := (read.lookup (.file path)).getD (.error .missing)
  standardInput := (read.lookup .standardInput).getD (.error .missing)

/-- Puts the lines of a log on the standard error. -/
def showLog (verbose : Bool) (events : List Event) : IO Unit := do
  let least := if verbose then Severity.debug else Severity.info
  for line in (Filter.mk [.ofPart none least]).lines events do IO.eprintln line

/-- Where the log of a run goes. -/
inductive LogPlace where
  | standardError
  /-- Into a file that is open. -/
  | file (log : IO.FS.Handle) (filter : Filter)

/-- The place for the log of a run: a new file in the directory that the environment names, which is
made, or else the standard error. There is none for a run that is broken off. -/
def openLog? (verbose : Bool) : IO (Option LogPlace) := do
  match ← IO.getEnv "CQLGEN_LOG_DIR" with
  | none => return some .standardError
  | some directory =>
    try
      if directory != "" then IO.FS.createDirAll directory
      let setting : LogSetting :=
        ⟨some directory, ← IO.getEnv "CQLGEN_LOG", ← IO.monoNanosNow, fun _ => ByteArray.empty⟩
      let log ← IO.FS.Handle.mk (setting.path directory) .append
      return (Filter.choose setting.filter verbose).map (.file log)
    catch _ => return some .standardError

/-- Puts the lines of a log into its place. -/
def writeLog (place : LogPlace) (verbose : Bool) (events : List Event) : IO Unit := do
  match place with
  | .standardError => showLog verbose events
  | .file log filter => for line in filter.lines events do log.putStrLn line

/-- Puts a generated text where the command line wants it. -/
def writeText (output : Option String) (text : String) : IO (Except Failure (List Event)) := do
  match output with
  | none =>
    IO.print text
    return .ok []
  | some path =>
    try
      IO.FS.writeBinFile path text.toUTF8
      return .ok [.wroteSource path]
    catch e => return .error (.unwritable path (.ofError e))

/-- Runs a command. -/
def perform (i : Invocation) (place : LogPlace) : IO UInt32 := do
  let read ← i.command.sources.mapM fun source => return (source, ← readSource source)
  let generated := generate (.ofRead read) i.command
  let written ← match generated.value with
    | .ok text => writeText i.output text
    | .error e => pure (.error e)
  match written with
  | .ok events =>
    writeLog place i.verbose (generated.events ++ events)
    return 0
  | .error e =>
    writeLog place i.verbose generated.events
    IO.eprintln ("Error: " ++ e.message)
    return 1

end CqlGlue.CommandLine

open CqlGlue.CommandLine in
/-- The program. -/
def main (args : List String) : IO UInt32 := do
  match Invocation.parse args with
  | .ok i =>
    match ← openLog? i.verbose with
    | some place => perform i place
    | none => return brokenOff.toUInt32
  | .error .versionAsked =>
    IO.print versionText
    return 0
  | .error .helpAsked =>
    IO.println UsageError.helpAsked.message
    return 0
  | .error e =>
    IO.eprintln ("error: " ++ e.message)
    return 2
