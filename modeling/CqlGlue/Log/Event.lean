import CqlGlue.Text.Quoted

/-!
# Log events

What a run reports while it works. An event is a cause, not a line of text; its severity, the
part of the program it comes from, its wording and its fields are functions of the cause.

## Main definitions
* `Event` lists the causes.
* `Event.severity`, `Event.source`, `Event.message`, `Event.fields` describe one.
* `Logged` is a value together with the events on the way to it.
-/

namespace CqlGlue

/-- How serious an event is, from the most serious on. -/
inductive Severity where
  | error
  | warn
  | info
  | debug
  | trace
  deriving DecidableEq, Repr

namespace Severity

/-- Position in the order of decreasing seriousness, from one on. -/
def rank : Severity → Nat
  | error => 1
  | warn => 2
  | info => 3
  | debug => 4
  | trace => 5

/-- The name in log lines. -/
def label : Severity → String
  | error => "ERROR"
  | warn => "WARN"
  | info => "INFO"
  | debug => "DEBUG"
  | trace => "TRACE"

end Severity

/-- Generators that leave suppressed procedures out. -/
inductive Generator where
  | objcClasses
  | csharp
  | java
  deriving DecidableEq, Repr

/-- What a run reports. -/
inductive Event where
  /-- A word of a production was substituted. -/
  | inlining (rule word : String)
  /-- A production to splice has no definition. -/
  | suppressedUndefined (rule : String)
  /-- A hand-written rule takes the place of a generated one. -/
  | replacingRule (rule : String)
  /-- The shim leaves a private procedure out. -/
  | skippingPrivate (procedure : String)
  /-- A generator leaves a suppressed procedure out. -/
  | skippingSuppressed (generator : Generator) (procedure : String)
  /-- The extension does not register a suppressed procedure. -/
  | notRegistering (procedure : String)
  /-- Generation of an editor grammar begins. -/
  | generatingGrammar (grammar : String)
  /-- A schema was read. -/
  | loadedSchema (schema : String) (procedures : Nat)
  /-- The generated text went to a file. -/
  | wroteSource (path : String)
  deriving DecidableEq, Repr

namespace Event

/-- The severity of an event. -/
def severity : Event → Severity
  | suppressedUndefined _ => .warn
  | generatingGrammar _ | loadedSchema _ _ | wroteSource _ => .info
  | _ => .debug

/-- The part of the program an event comes from, as log filters name it. -/
def source : Event → String
  | inlining _ _ => "cqlgen_grammar::inline"
  | suppressedUndefined _ | replacingRule _ => "cqlgen_grammar::tree_sitter"
  | skippingPrivate _ => "cqlgen_interop::objc"
  | skippingSuppressed .objcClasses _ => "cqlgen_interop::objc_full"
  | skippingSuppressed .csharp _ => "cqlgen_interop::csharp"
  | skippingSuppressed .java _ => "cqlgen_interop::java"
  | notRegistering _ => "cqlgen_interop::sqlite_ext"
  | generatingGrammar _ | loadedSchema _ _ | wroteSource _ => "cqlgen"

/-- The wording of an event. -/
def message : Event → String
  | inlining _ _ => "inlining production"
  | suppressedUndefined _ => "suppressed rule is not defined by the grammar"
  | replacingRule _ => "replacing generated rule"
  | skippingPrivate _ => "skipping private procedure"
  | skippingSuppressed _ _ => "skipping suppressed procedure"
  | notRegistering _ => "not registering suppressed procedure"
  | generatingGrammar _ => "generating tree-sitter grammar"
  | loadedSchema _ _ => "loaded schema"
  | wroteSource _ => "wrote generated source"

/-- The fields of an event, each with its plain value. -/
def fields : Event → List (String × String)
  | inlining rule word => [("rule", rule), ("word", word)]
  | suppressedUndefined rule | replacingRule rule => [("rule", rule)]
  | skippingPrivate p | skippingSuppressed _ p | notRegistering p => [("procedure", p)]
  | generatingGrammar grammar => [("grammar", grammar)]
  | loadedSchema schema n => [("schema", schema), ("procedures", toString n)]
  | wroteSource path => [("path", path)]

/-- The fields as a log line shows them. Only the left-hand side of an inlined production is
quoted: it is free text of the listing, the others are names. -/
def shownFields : Event → List (String × String)
  | inlining rule word => [("rule", Text.quoted rule), ("word", word)]
  | e => e.fields

/-- One line of a log file, without its time. -/
def line (e : Event) : String :=
  e.severity.label ++ " " ++ e.source ++ ": " ++ e.message ++
    String.join (e.shownFields.map fun f => " " ++ f.1 ++ "=" ++ f.2)

end Event

/-- A value and the events reported on the way to it, in order. -/
structure Logged (α : Type) where
  value : α
  events : List Event

end CqlGlue
