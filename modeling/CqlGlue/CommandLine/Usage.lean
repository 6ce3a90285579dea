/-!
# The options of the program

The commands of the program, the options and arguments each of them takes, and what can be
wrong with a command line. An option is declared with a long name and perhaps with aliases.

## Main definitions
* `Key` names what can be given, `Kind` says what is given for a key.
* `Declaration` is an option as it is declared.
* `Subcommand` lists the commands, `Spec` is what one of them takes.
* `UsageError` lists what can be wrong, `FaultKind` the kinds of faults.
-/

namespace CqlGlue.CommandLine

/-- What can be given on a command line. -/
inductive Key where
  | output
  | verbose
  | help
  | version
  | grammar
  | config
  | input
  | words
  | schema
  | cqlHeader
  | header
  | legacy
  | emitImpl
  | className
  | emitC
  | package
  | jniHeader
  | namePrefix
  | verbosity
  deriving DecidableEq, Repr

/-- What is given for a key. -/
inductive Kind where
  /-- Nothing: the key itself says all. -/
  | flag
  | help
  | version
  /-- A path, which may not be empty. -/
  | path
  | text
  /-- Texts with commas between them; may be given again. -/
  | texts
  | level
  deriving DecidableEq, Repr

namespace Key

/-- What is given for a key. -/
def kind : Key → Kind
  | verbose | legacy | emitImpl | emitC => .flag
  | help => .help
  | version => .version
  | output | grammar | config | input | schema => .path
  | words => .texts
  | verbosity => .level
  | cqlHeader | header | className | package | jniHeader | namePrefix => .text

/-- Whether a value is given for a key. -/
def takesValue (k : Key) : Bool :=
  match k.kind with
  | .flag | .help | .version => false
  | _ => true

/-- Whether a key may be given again. -/
def repeats (k : Key) : Bool := k.kind == .texts

end Key

/-- An option as it is declared. -/
structure Declaration where
  key : Key
  /-- The long name. -/
  long : String
  /-- Spellings that stand for the long name. -/
  aliases : List String
  deriving DecidableEq, Repr

/-- All spellings of an option. -/
def Declaration.spellings (d : Declaration) : List String := d.long :: d.aliases

/-- What a command takes. -/
structure Spec where
  options : List Declaration
  /-- The options by their letters. -/
  shorts : List (Char × Key)
  /-- The argument that is given without an option. -/
  positional : Option Key
  deriving Repr

/-- The options by their long spellings. -/
def Spec.longs (spec : Spec) : List (String × Key) :=
  spec.options.flatMap fun d => d.spellings.map fun spelling => (spelling, d.key)

/-- The options of every command. -/
def sharedOptions : List Declaration :=
  [⟨.output, "output", []⟩, ⟨.verbose, "verbose", []⟩, ⟨.help, "help", []⟩]

/-- The letters of every command. -/
def sharedShorts : List (Char × Key) := [('o', .output), ('v', .verbose), ('h', .help)]

/-- What is taken before a command. -/
def mainSpec : Spec where
  options := sharedOptions ++ [⟨.version, "version", []⟩]
  shorts := sharedShorts ++ [('V', .version)]
  positional := none

/-- The commands. -/
inductive Subcommand where
  | treeSitter
  | inline
  | objc
  | objcFull
  | csharp
  | java
  | sqliteExt
  deriving DecidableEq, Repr

namespace Subcommand

/-- All commands. -/
def all : List Subcommand := [treeSitter, inline, objc, objcFull, csharp, java, sqliteExt]

/-- The name of a command. -/
def name : Subcommand → String
  | treeSitter => "tree-sitter"
  | inline => "inline"
  | objc => "objc"
  | objcFull => "objc-full"
  | csharp => "csharp"
  | java => "java"
  | sqliteExt => "sqlite-ext"

/-- The command of a name. -/
def ofName? (s : String) : Option Subcommand := all.find? (·.name == s)

/-- The argument of a command that is given without an option. -/
def positional : Subcommand → Key
  | treeSitter => .grammar
  | inline => .input
  | _ => .schema

/-- The options of a command that not every command has. Older scripts spell some of them with
an underscore. -/
def ownOptions : Subcommand → List Declaration
  | treeSitter => [⟨.config, "config", []⟩]
  | inline => [⟨.words, "words", []⟩]
  | objc => [cqlHeader]
  | objcFull => [⟨.header, "header", []⟩, ⟨.legacy, "legacy", []⟩,
      ⟨.emitImpl, "emit-impl", ["emit_impl"]⟩]
  | csharp => [⟨.className, "class", []⟩, cqlHeader, emitC]
  | java => [⟨.package, "package", []⟩, ⟨.className, "class", []⟩,
      ⟨.jniHeader, "jni-header", ["jni_header"]⟩, cqlHeader, emitC]
  | sqliteExt => [cqlHeader, ⟨.namePrefix, "namespace", []⟩, ⟨.verbosity, "verbosity", []⟩]
where
  /-- The header of the procedures. -/
  cqlHeader : Declaration := ⟨.cqlHeader, "cql-header", ["cql_header"]⟩
  /-- The wish for the C side. -/
  emitC : Declaration := ⟨.emitC, "emit-c", ["emit_c"]⟩

/-- What a command takes. -/
def spec (c : Subcommand) : Spec where
  options := c.ownOptions ++ sharedOptions
  shorts := sharedShorts
  positional := some c.positional

end Subcommand

/-- What can be wrong with a command line, and the requests that end the reading of one. -/
inductive UsageError where
  /-- An option lacks its value. -/
  | missingValue (key : Key)
  | emptyPath (key : Key)
  /-- No verbosity has this name. -/
  | badVerbosity (name : String)
  /-- An option that takes no value has one. -/
  | unwantedValue (key : Key)
  /-- A key is given again that may not be. -/
  | repeated (key : Key)
  | unknownOption (spelling : String)
  /-- There is no place for an argument. -/
  | unknownArgument (text : String)
  | unknownCommand (text : String)
  | missingArgument (key : Key)
  | missingCommand
  /-- Nothing at all is given. -/
  | nothingGiven
  | helpAsked
  | versionAsked
  deriving DecidableEq, Repr

/-- The kinds of faults. -/
inductive FaultKind where
  | invalidValue
  | valueValidation
  | tooManyValues
  | argumentConflict
  | unknownArgument
  | invalidSubcommand
  | missingRequiredArgument
  | missingSubcommand
  | displayHelpOnMissing
  | displayHelp
  | displayVersion
  deriving DecidableEq, Repr

/-- The kind of a fault, which does not show how anything was spelled. -/
def UsageError.kind : UsageError → FaultKind
  | missingValue _ | emptyPath _ => .invalidValue
  | badVerbosity _ => .valueValidation
  | unwantedValue _ => .tooManyValues
  | repeated _ => .argumentConflict
  | unknownOption _ | unknownArgument _ => .unknownArgument
  | unknownCommand _ => .invalidSubcommand
  | missingArgument _ => .missingRequiredArgument
  | missingCommand => .missingSubcommand
  | nothingGiven => .displayHelpOnMissing
  | helpAsked => .displayHelp
  | versionAsked => .displayVersion

namespace Key

/-- The name of a key in messages. -/
def name : Key → String
  | output => "output"
  | verbose => "verbose"
  | help => "help"
  | version => "version"
  | grammar => "grammar"
  | config => "config"
  | input => "input"
  | words => "words"
  | schema => "schema"
  | cqlHeader => "cql-header"
  | header => "header"
  | legacy => "legacy"
  | emitImpl => "emit-impl"
  | className => "class"
  | emitC => "emit-c"
  | package => "package"
  | jniHeader => "jni-header"
  | namePrefix => "namespace"
  | verbosity => "verbosity"

end Key

/-- The wording of a fault. -/
def UsageError.message : UsageError → String
  | missingValue k => "a value is required for '" ++ k.name ++ "'"
  | emptyPath k => "'" ++ k.name ++ "' cannot be empty"
  | badVerbosity name => "there is no verbosity '" ++ name ++ "'"
  | unwantedValue k => "'" ++ k.name ++ "' takes no value"
  | repeated k => "'" ++ k.name ++ "' cannot be used multiple times"
  | unknownOption spelling => "unexpected option '" ++ spelling ++ "'"
  | unknownArgument text => "unexpected argument '" ++ text ++ "'"
  | unknownCommand text => "unrecognized command '" ++ text ++ "'"
  | missingArgument k => "'" ++ k.name ++ "' must be given"
  | missingCommand | nothingGiven | helpAsked | versionAsked =>
    "usage: cqlgen [--output PATH] [--verbose] COMMAND, where COMMAND is one of " ++
      String.intercalate ", " (Subcommand.all.map Subcommand.name)

end CqlGlue.CommandLine
