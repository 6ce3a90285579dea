import CqlGlue.Bindings.JavaManaged
import CqlGlue.Proofs.Code.Heads
import CqlGlue.Proofs.Java.Mangling
import CqlGlue.Proofs.Text.InOrder
import Mathlib.Data.List.Forall2

/-!
# Native methods and their functions

The managed class declares native methods, the C side defines functions for them, and nothing
but names and types ties the one to the other. Declarations and definitions go through the
procedures in the same order; each function has the symbol under which its method is looked
for, the result the method has, and behind the two parameters that every such function has the
parameters of the method. Both are told by what stands in the files: the declarations of the methods
in the one, the heads of the functions in the other.

## Main definitions
* `Jni.type` is the C type of a managed type.
* `Implements` is what a function has to be for a method.
* `declared` is a native method as the managed file declares it.

## Main statements
* `implements_nativeMethods` holds of all packages, classes and names that are identifiers.
-/

namespace CqlGlue

namespace Jni

/-- Managed types with a C type of their own. -/
def ownTypes : List (String × String) :=
  let values := ["boolean", "byte", "char", "short", "int", "long", "float", "double"]
  values.map (fun t => (t, "j" ++ t)) ++ values.map (fun t => (t ++ "[]", "j" ++ t ++ "Array")) ++
    [("Object[]", "jobjectArray"), ("String", "jstring"), ("Class", "jclass"),
      ("Throwable", "jthrowable")]

/-- The C type of a managed type. -/
def type (managed : String) : String := (ownTypes.lookup managed).getD "jobject"

end Jni

namespace JavaNative

open Code JavaManaged

/-- What stands before the symbol of an exported function. -/
def exporting (result : String) : String := "JNIEXPORT " ++ result ++ " JNICALL "

/-- A C function is the one that a method of the class is linked to. -/
structure Implements (o : Options) (m : NativeMethod) (f : Function) : Prop where
  symbol : f.symbol = Jni.symbol (o.package ++ "." ++ o.className) m.name
  result : m.result = "long" ∨ m.result = "void"
  long_iff : f.result = exporting "jlong" ↔ m.result = "long"
  void_iff : f.result = exporting "void" ↔ m.result = "void"
  /-- Behind the environment and the class stand the parameters of the method. -/
  params : ∃ params, f.params = [⟨"JNIEnv", "env", true⟩, ⟨"jclass", "thiz", false⟩] ++ params ∧
    List.Forall₂ (fun q c => c = ⟨Jni.type q.type, q.name, false⟩) m.params params

/-- A native method as the managed file declares it. -/
def declared (m : NativeMethod) : String :=
  "  public static native " ++ m.result ++ " " ++ m.name ++ "(" ++
    String.intercalate ", " (m.params.map fun q => q.type ++ " " ++ q.name) ++ ");\n"

/-! ## Results -/

theorem result_nativeMethod (p : Procedure) :
    (nativeMethod p).result = if ReturnRow.isEmpty p then "void" else "long" := by
  rw [nativeMethod, ReturnRow.hasResults_eq]
  cases ReturnRow.isEmpty p <;> rfl

theorem result_entryPoint (o : Options) (p : Procedure) :
    (entryPoint o p).result = exporting (if ReturnRow.isEmpty p then "void" else "jlong") := rfl

theorem name_nativeMethod (p : Procedure) : (nativeMethod p).name = methodName p := by
  rw [nativeMethod, methodName, ReturnRow.hasResults_eq]
  cases ReturnRow.isEmpty p <;> simp

theorem params_nativeMethod (p : Procedure) : (nativeMethod p).params = JavaManaged.params p := by
  rw [nativeMethod]
  split <;> rfl

/-! ## Parameters -/

theorem type_typeName (t : CoreType) (notNull : Bool) :
    Jni.type (typeName t notNull) = paramType t notNull := by
  cases t <;> cases notNull <;> decide

theorem params_eq (p : Procedure) :
    params p = (JavaManaged.params p).map fun q => ⟨Jni.type q.type, q.name, false⟩ := by
  have hlong : Jni.type "long" = "jlong" := by decide
  rw [params, JavaManaged.params, List.map_append, List.map_map]
  congr 1
  · cases p.usesDatabase <;> simp [hlong, Param.plain]
  · refine List.map_congr_left fun a _ => ?_
    simp [Param.plain, type_typeName]

/-! ## Symbols -/

theorem isIdentifier_methodName {p : Procedure} (h : IsIdentifier p.name) :
    IsIdentifier (methodName p) := by
  rw [methodName]
  apply h.append
  cases ReturnRow.isEmpty p <;> decide

/-! ## Correspondence -/

variable {o : Options} {s : Schema}

theorem implements_nativeMethod (hpackage : IsQualifiedName o.package)
    (hclass : IsIdentifier o.className) {p : Procedure} (h : IsIdentifier p.name) :
    Implements o (nativeMethod p) (entryPoint o p) where
  symbol := by
    rw [name_nativeMethod]
    exact symbol_eq hpackage hclass (isIdentifier_methodName h)
  result := by
    rw [result_nativeMethod]
    cases ReturnRow.isEmpty p <;> decide
  long_iff := by
    rw [result_nativeMethod, result_entryPoint]
    cases ReturnRow.isEmpty p <;> decide
  void_iff := by
    rw [result_nativeMethod, result_entryPoint]
    cases ReturnRow.isEmpty p <;> decide
  params := by
    refine ⟨params p, rfl, ?_⟩
    rw [params_nativeMethod, params_eq, List.forall₂_map_right_iff]
    exact List.forall₂_same.2 fun q _ => rfl

theorem inOrder_nativeMethods (package className : String) (s : Schema) :
    Text.InOrder ((nativeMethods s).map declared) (JavaManaged.text package className s) := by
  have htext : ∀ m : NativeMethod, m.text = declared m := fun _ => rfl
  rw [nativeMethods, List.map_map]
  refine (Text.InOrder.after _ (Text.InOrder.join fun p _ => ?_)).before _
  rw [Function.comp_apply, ← htext]
  exact .after _ (.before (.after _ (.self _)) _)

theorem inOrder_entryPoints (o : Options) (s : Schema) :
    Text.InOrder ((entryPoints o s).map Function.stackedHead) (text o s) := by
  rw [entryPoints, List.map_map]
  exact .after _ (.join fun p _ => .after _ (Function.inOrder_stackedHead _))

/-- Where package, class and procedures have names made of identifiers, the native methods that
the managed file declares and the functions that the C file defines correspond one to one in
order. -/
theorem implements_nativeMethods (hpackage : IsQualifiedName o.package)
    (hclass : IsIdentifier o.className) (hnames : ∀ p ∈ s.procedures, IsIdentifier p.name) :
    List.Forall₂ (Implements o) (nativeMethods s) (entryPoints o s) ∧
      Text.InOrder ((nativeMethods s).map declared) (JavaManaged.text o.package o.className s) ∧
      Text.InOrder ((entryPoints o s).map Function.stackedHead) (text o s) := by
  refine ⟨?_, inOrder_nativeMethods .., inOrder_entryPoints o s⟩
  rw [nativeMethods, entryPoints, List.forall₂_map_left_iff, List.forall₂_map_right_iff]
  refine List.forall₂_same.2 fun p hp => ?_
  exact implements_nativeMethod hpackage hclass (hnames p (List.mem_of_mem_filter hp))

/-- A procedure that gives nothing back, and one that does and takes values, boxes and
references. -/
def journal : Schema where
  queries := []
  deletes := []
  inserts := []
  generalInserts := []
  updates := []
  general := [
    ⟨"write_line", [⟨"line", .text, true, .inOnly, none, false⟩], none, [], some false, false⟩,
    ⟨"read_lines",
      [⟨"first", .long, true, .inOnly, none, false⟩, ⟨"key", .blob, true, .inOnly, none, false⟩,
        ⟨"count", .integer, false, .inOut, none, false⟩,
        ⟨"last", .long, true, .outOnly, none, false⟩],
      some [⟨"line", .text, true, none, false⟩], [], none, false⟩]

theorem implements_journal :
    IsQualifiedName "com.acme_1.logs" ∧ IsIdentifier "Line_Journal" ∧
      (∀ p ∈ journal.procedures, IsIdentifier p.name) ∧
      let o : Options := ⟨"com.acme_1.logs", "Line_Journal", defaultJniHeader, defaultHeader⟩
      List.Forall₂ (Implements o) (nativeMethods journal) (entryPoints o journal) ∧
        Text.InOrder
          ["  public static native void write_line(String line);\n",
            "  public static native long read_linesJNI(long __db, long first, byte[] key, " ++
              "Integer count);\n"]
          (JavaManaged.text o.package o.className journal) ∧
        Text.InOrder
          ["JNIEXPORT void JNICALL Java_com_acme_11_logs_Line_1Journal_write_1line(\n" ++
              "  JNIEnv *env,\n  jclass thiz,\n  jstring line)\n\x7b\n",
            "JNIEXPORT jlong JNICALL Java_com_acme_11_logs_Line_1Journal_read_1linesJNI(\n" ++
              "  JNIEnv *env,\n  jclass thiz,\n  jlong __db,\n  jlong first,\n" ++
              "  jbyteArray key,\n  jobject count)\n\x7b\n"]
          (text o journal) := by
  have hpackage : IsQualifiedName "com.acme_1.logs" :=
    ⟨["com", "acme_1", "logs"], by decide, by decide, by decide⟩
  have hclass : IsIdentifier "Line_Journal" := by decide
  have hnames : ∀ p ∈ journal.procedures, IsIdentifier p.name := by decide
  exact ⟨hpackage, hclass, hnames, implements_nativeMethods hpackage hclass hnames⟩

end JavaNative

end CqlGlue
