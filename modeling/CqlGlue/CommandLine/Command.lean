import CqlGlue.Bindings.CSharpNative
import CqlGlue.Bindings.JavaNative
import CqlGlue.Bindings.ObjcClasses
import CqlGlue.Bindings.SqliteExtension
import CqlGlue.CommandLine.Reader

/-!
# Commands

What a command line asks for, once it has been read and what it leaves out has been filled in.

## Main definitions
* `Command` is a command with all it needs.
* `Invocation` is a command with the options of every command.
* `Invocation.parse` reads a command line.
-/

namespace CqlGlue.CommandLine

/-- A command with all it needs. -/
inductive Command where
  | treeSitter (grammar : String) (config : Option String)
  | inline (input : Option String) (words : Option (List String))
  | objc (schema cqlHeader : String)
  | objcFull (schema header : String) (legacy emitImpl : Bool)
  | csharp (schema className cqlHeader : String) (emitC : Bool)
  | java (schema package className jniHeader cqlHeader : String) (emitC : Bool)
  | sqliteExt (schema cqlHeader : String) (namePrefix : Option String) (verbosity : Verbosity)
  deriving DecidableEq, Repr

namespace Command

/-- The listing that is read when none is named. -/
def defaultGrammar : String := "cql_grammar.txt"

/-- The class that is generated when none is named. -/
def defaultClass : String := "default_class"

/-- The package that is generated when none is named. -/
def defaultPackage : String := "default_package"

/-- The value of a key that must be given. -/
def required (s : State) (k : Key) : Except UsageError String :=
  match s.value? k with
  | some v => .ok v
  | none => .error (.missingArgument k)

/-- The value of a key, or what stands for it when it is not given. -/
def valueOr (s : State) (k : Key) (value : String) : String := (s.value? k).getD value

/-- A command with what has been given for it. -/
def ofState (c : Subcommand) (s : State) : Except UsageError Command := do
  match c with
  | .treeSitter => return .treeSitter (valueOr s .grammar defaultGrammar) (s.value? .config)
  | .inline =>
    return .inline (s.value? .input) (if s.has .words then some (s.values .words) else none)
  | .objc => return .objc (← required s .schema) (← required s .cqlHeader)
  | .objcFull =>
    return .objcFull (← required s .schema) (valueOr s .header ObjcClasses.defaultHeader)
      (s.has .legacy) (s.has .emitImpl)
  | .csharp =>
    return .csharp (← required s .schema) (valueOr s .className defaultClass)
      (valueOr s .cqlHeader CSharpNative.defaultHeader) (s.has .emitC)
  | .java =>
    return .java (← required s .schema) (valueOr s .package defaultPackage)
      (valueOr s .className defaultClass) (valueOr s .jniHeader JavaNative.defaultJniHeader)
      (valueOr s .cqlHeader JavaNative.defaultHeader) (s.has .emitC)
  | .sqliteExt =>
    return .sqliteExt (← required s .schema) (valueOr s .cqlHeader SqliteExtension.defaultHeader)
      (s.value? .namePrefix)
      (((s.value? .verbosity).bind Verbosity.ofName?).getD Verbosity.standard)

end Command

/-- A command with the options of every command. -/
structure Invocation where
  /-- The file that gets the generated text in place of the standard output. -/
  output : Option String
  verbose : Bool
  command : Command
  deriving DecidableEq, Repr

namespace Invocation

/-- Reads a command line. What is given after the command wins over what is given before it,
and is looked at first. -/
def parse (args : List String) : Except UsageError Invocation := do
  match ← readMain args {} with
  | (s, none) =>
    let s ← s.settle
    .error (if s.given.isEmpty then .nothingGiven else .missingCommand)
  | (before, some (c, rest)) =>
    let after ← readCommand c.spec rest {}
    let command ← Command.ofState c after
    let before ← before.settle
    return ⟨after.value? .output <|> before.value? .output,
      before.has .verbose || after.has .verbose, command⟩

end Invocation

end CqlGlue.CommandLine
