import CqlGlue.Bindings.CSharpManaged
import CqlGlue.Bindings.CSharpNative
import CqlGlue.Bindings.JavaManaged
import CqlGlue.Bindings.JavaNative
import CqlGlue.Bindings.ObjcClasses
import CqlGlue.Bindings.ObjcShim
import CqlGlue.Bindings.SqliteExtension

/-!
# Targets

What can be generated from a schema.

## Main definitions
* `Target` lists the files, each with what it depends on apart from the schema.
* `Target.text` is the generated file, `Target.events` what is reported meanwhile.
-/

namespace CqlGlue

/-- A file that can be generated from a schema. -/
inductive Target where
  | objcShim (cqlHeader : String)
  | objcHeader (options : ObjcClasses.Options)
  | objcImplementation (options : ObjcClasses.Options)
  | csharpManaged (className : String)
  | csharpNative (options : CSharpNative.Options)
  | javaManaged (package className : String)
  | javaNative (options : JavaNative.Options)
  | sqliteExtension (options : SqliteExtension.Options)

namespace Target

/-- The generated file. -/
def text : Target → Schema → String
  | objcShim cqlHeader => ObjcShim.text cqlHeader
  | objcHeader o => ObjcClasses.headerText o
  | objcImplementation o => ObjcClasses.implementationText o
  | csharpManaged className => CSharpManaged.text className
  | csharpNative o => CSharpNative.text o
  | javaManaged package className => JavaManaged.text package className
  | javaNative o => JavaNative.text o
  | sqliteExtension o => SqliteExtension.text o

/-- What is reported about the procedures left out, in the order of the schema. -/
def events (t : Target) (s : Schema) : List Event :=
  let skipped (g : Generator) : List Event :=
    s.suppressed.map fun p => .skippingSuppressed g p.name
  match t with
  | objcShim _ => (s.procedures.filter (·.isPrivate)).map fun p => .skippingPrivate p.name
  | objcHeader _ | objcImplementation _ => skipped .objcClasses
  | csharpManaged _ | csharpNative _ => skipped .csharp
  | javaManaged _ _ | javaNative _ => skipped .java
  | sqliteExtension _ => s.suppressed.map fun p => .notRegistering p.name

end Target

end CqlGlue
