import CqlGlue.Bindings.Banner
import CqlGlue.Bindings.NativeEntry
import CqlGlue.Text.Pieces

/-!
# The C side of the Java bindings

The C functions that implement the native methods of the managed class. A native method finds
its function by a symbol made of package, class and method, in which an underscore of a name is
told from one that separates names by a digit after it.

## Main definitions
* `symbol` is the symbol of a method.
* `marshal` turns a parameter into what the procedure takes.
* `entryPoint` is the function for one procedure, `text` the whole file.
-/

namespace CqlGlue.JavaNative

open Code

/-- What a generated file depends on apart from the schema. -/
structure Options where
  package : String
  className : String
  /-- The header that declares the native methods. -/
  jniHeader : String
  /-- The header that declares the procedures. -/
  cqlHeader : String

/-- The header of the procedures when none is named. -/
def defaultHeader : String := "something.h"

/-- The header of the native methods when none is named. -/
def defaultJniHeader : String := "something_somethingJNI.h"

/-! ## Symbols -/

/-- A name as a part of a symbol. -/
def escape (name : String) : String :=
  String.ofList (Text.replaceChar '_' ['_', '1'] name.toList)

/-- What the symbols of all methods of a class begin with. -/
def symbolHead (package className : String) : String :=
  "Java_" ++ String.intercalate "_" ((Text.pieces '.' package).map escape) ++ "_" ++
    escape className ++ "_"

/-- The symbol of a method of a class. -/
def symbol (package className method : String) : String :=
  symbolHead package className ++ escape method

/-! ## Unboxing -/

/-- What it takes to read a boxed value. -/
structure Box where
  /-- The native type of the value. -/
  nativeType : String
  className : String
  /-- The class in the names of variables. -/
  lowerName : String
  /-- The type of the value in managed code. -/
  primitive : String
  signature : String
  /-- The type in the name of the calling function. -/
  caller : String

/-- The boxes of the types of values. -/
def boxes : List Box :=
  [⟨"jboolean", "Boolean", "boolean", "boolean", "Z", "Boolean"⟩,
    ⟨"jint", "Integer", "integer", "int", "I", "Int"⟩,
    ⟨"jlong", "Long", "long", "long", "J", "Long"⟩,
    ⟨"jdouble", "Double", "double", "double", "D", "Double"⟩]

/-- The function that reads a boxed value. -/
def Box.text (b : Box) : String :=
  "static " ++ b.nativeType ++ " Unbox" ++ b.className ++ "(JNIEnv *env, jobject boxed" ++
    b.className ++ ")\n" ++
  "\x7b\n" ++
  "    // Get the class of " ++ b.className ++ "\n" ++
  "    jclass " ++ b.lowerName ++ "Class = (*env)->GetObjectClass(env, boxed" ++
    b.className ++ ");\n\n" ++
  "    // Get the method ID for " ++ b.primitive ++ "Value() method\n" ++
  "    jmethodID " ++ b.primitive ++ "ValueMethodID = (*env)->GetMethodID(env, " ++
    b.lowerName ++ "Class, \"" ++ b.primitive ++ "Value\", \"()" ++ b.signature ++ "\");\n\n" ++
  "    // Call the " ++ b.primitive ++ "Value() method to get the " ++ b.primitive ++
    " value\n" ++
  "    return (*env)->Call" ++ b.caller ++ "Method(env, boxed" ++ b.className ++ ", " ++
    b.primitive ++ "ValueMethodID);\n" ++
  "\x7d\n\n"

/-- The function that unboxes a value of a type. -/
def unboxer : CoreType → String
  | .bool => "UnboxBoolean"
  | .integer => "UnboxInteger"
  | .long => "UnboxLong"
  | _ => "UnboxDouble"

/-! ## Entry points -/

/-- The type of a parameter. -/
def paramType (type : CoreType) (notNull : Bool) : String :=
  match type with
  | .bool => if notNull then "jboolean" else "jobject"
  | .integer => if notNull then "jint" else "jobject"
  | .long => if notNull then "jlong" else "jobject"
  | .real => if notNull then "jdouble" else "jobject"
  | .object => "jobject"
  | .blob => "jbyteArray"
  | .text => "jstring"

/-- The parameters every native method has. -/
def contextParams : List Param := [⟨"JNIEnv", "env", true⟩, .plain "jclass" "thiz"]

/-- The parameters that the managed declaration has too: the database and the arguments the
caller supplies. -/
def params (p : Procedure) : List Param :=
  (if p.usesDatabase then [.plain "jlong" "__db"] else []) ++
    p.inArgs.map fun a => .plain (paramType a.type a.isNotNull) a.name

/-- A call into the managed runtime. -/
def runtimeCall (method : String) (args : List String) : Expr :=
  .call ("(*env)->" ++ method) (.name "env" :: args.map .name)

/-- What an argument needs. An argument that is only written goes straight into the row; what
the procedure writes into one that is also read is not copied there. -/
def marshal (a : Argument) : Marshalled :=
  let x := a.name
  let passed (operand : Operand) : CallArg :=
    ⟨"/* " ++ a.binding.name ++ " */", a.binding == .inOut, operand⟩
  if a.binding == .outOnly then
    ⟨[], ⟨"/* " ++ a.binding.name ++ " */", true, .value (.member "row" x)⟩, []⟩
  else
    match a.type with
    | .text =>
      let ref : Expr := .name ("str_ref_" ++ x)
      let chars := "cString_" ++ x
      ⟨[.define "cql_string_ref" ("str_ref_" ++ x) (.name "NULL"),
          .block (.name x)
            [.definePointer "const char" chars (runtimeCall "GetStringUTFChars" [x, "NULL"]),
              .assign ref (.call "cql_string_ref_new" [.name chars]),
              .perform (runtimeCall "ReleaseStringUTFChars" [x, chars])]],
        passed (.value ref), [.perform (.call "cql_string_release" [ref])]⟩
    | .blob =>
      let ref : Expr := .name ("blob_ref_" ++ x)
      let bytes := "bytes_" ++ x
      let len := "len_" ++ x
      ⟨[.define "cql_blob_ref" ("blob_ref_" ++ x) (.name "NULL"),
          .block (.name x)
            [.definePointer "jbyte" bytes (runtimeCall "GetByteArrayElements" [x, "NULL"]),
              .define "jsize" len (runtimeCall "GetArrayLength" [x]),
              .assign ref (.call "cql_blob_ref_new" [.name bytes, .name len]),
              .perform (runtimeCall "ReleaseByteArrayElements" [x, bytes, "JNI_ABORT"])]],
        passed (.value ref), [.perform (.call "cql_blob_release" [ref])]⟩
    | .object =>
      ⟨[],
        passed (.unsupported (" /* unsupported arg type object isnotnull:" ++
          (if a.isNotNull then "1" else "0") ++ " */")),
        []⟩
    | t =>
      if a.isNotNull then ⟨[], passed (.value (.name x)), []⟩
      else
        let value : Expr := .name ("n_" ++ x)
        ⟨[.reserve t.nullableCType ("n_" ++ x),
            .perform (.call "cql_set_nullable"
              [value, .negation (.name x),
                .choice (.name x) (.call (unboxer t) [.name "env", .name x]) (.name "0")])],
          passed (.value value), []⟩

/-- How entry points are written. -/
def style : NativeStyle where
  resultSet := "_result_set_"
  outputs := "result_set"
  handle := "jlong"
  takeover := "// let the row take over the reference, we don't release it"
  notes := [.note "// inout bindings not supported yet"]
  encodesContext := true
  marshal := marshal

/-- The native method of a procedure. One that gives something back has a wrapper, and a name
apart from it. -/
def methodName (p : Procedure) : String := p.name ++ if ReturnRow.isEmpty p then "" else "JNI"

/-- The entry point of a procedure. -/
def entryPoint (o : Options) (p : Procedure) : Function :=
  ⟨"JNIEXPORT " ++ style.resultType p ++ " JNICALL ",
    symbol o.package o.className (methodName p), contextParams ++ params p, style.body p⟩

/-- The entry points of a schema, in order. -/
def entryPoints (o : Options) (s : Schema) : List Function := s.wrapped.map (entryPoint o)

/-- The C file for a schema. -/
def text (o : Options) (s : Schema) : String :=
  Banner.licenseComment ++ "\n" ++
  "#include \"cqlrt.h\"\n" ++
  "#include \"" ++ o.jniHeader ++ "\"\n" ++
  "#include \"" ++ o.cqlHeader ++ "\"\n\n" ++
  "\n" ++ String.join (boxes.map Box.text) ++
  String.join (s.wrapped.map fun p => NativeStyle.text p (entryPoint o p))

end CqlGlue.JavaNative
