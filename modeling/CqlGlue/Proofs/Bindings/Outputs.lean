import CqlGlue.Proofs.Bindings.FilledRow
import CqlGlue.Proofs.Objc.Results

/-!
# Outputs of entry points

What a procedure gives back reaches the caller: in the bindings of C# and Java as a member of a
row, in those of Objective-C as a property of an object. Members and properties are given names
of arguments beside names of the generator's own, and where an argument takes one of these, two
outputs go into one place.

## Main statements
* `outputs_reachCaller`: all outputs arrive where no argument has a name of the generator's own.
-/

namespace CqlGlue

open Code

/-- Where arguments have distinct names, and no output is called like a member or a property that
is there for something else, the entry points of all three languages hand every output over. -/
theorem outputs_reachCaller (c : CSharpNative.Options) (j : JavaNative.Options) {p : Procedure}
    (hargs : (p.args.map (·.name)).Nodup) :
    ((∀ a ∈ p.outArgs, a.name ∉ ReturnRow.ownMembers p) →
      (∀ a ∈ p.args, a.binding = .inOut → a.type ≠ .object) →
        CSharpNative.style.HandsOverRow p (CSharpNative.entryPoint c p)) ∧
    ((∀ a ∈ p.outArgs, a.name ∉ ReturnRow.ownMembers p) → (∀ a ∈ p.args, a.binding ≠ .inOut) →
      JavaNative.style.HandsOverRow p (JavaNative.entryPoint j p)) ∧
    ((∀ a ∈ p.outArgs, a.name ∉ ObjcClasses.ownProperties p) →
      (∀ a ∈ p.args, a.type ≠ .object) → ObjcClasses.hasReturn p = true →
        ObjcClasses.HandsOverResult p) :=
  ⟨CSharpNative.handsOverRow c hargs, JavaNative.handsOverRow j hargs,
    fun hown hobject hreturn => ObjcClasses.handsOverResult hreturn hargs hown hobject⟩

/-- A procedure with a result set that writes a value and a reference, of which it reads none. -/
def lookUp : Procedure :=
  ⟨"look_up",
    [⟨"key", .text, true, .inOnly, none, false⟩, ⟨"total", .long, false, .outOnly, none, false⟩,
      ⟨"label", .text, false, .outOnly, none, false⟩],
    some [⟨"id", .integer, true, none, false⟩], [], some true, false⟩

theorem outputs_reachCaller_lookUp :
    (lookUp.args.map (·.name)).Nodup ∧ (∀ a ∈ lookUp.args, a.binding ≠ .inOut) ∧
      JavaNative.style.HandsOverRow lookUp
        (JavaNative.entryPoint ⟨"com.bank", "Bank", "com_bank.h", "bank.h"⟩ lookUp) ∧
      (CallingFile.transfer.args.map (·.name)).Nodup ∧
      CSharpNative.style.HandsOverRow CallingFile.transfer
        (CSharpNative.entryPoint ⟨"Bank", "bank.h"⟩ CallingFile.transfer) ∧
      ObjcClasses.HandsOverResult CallingFile.transfer := by
  have hlookUp : (lookUp.args.map (·.name)).Nodup := by decide
  have htransfer : (CallingFile.transfer.args.map (·.name)).Nodup := by decide
  obtain ⟨-, hjava, -⟩ := outputs_reachCaller ⟨"Bank", "bank.h"⟩
    ⟨"com.bank", "Bank", "com_bank.h", "bank.h"⟩ hlookUp
  obtain ⟨hcsharp, -, hobjc⟩ := outputs_reachCaller ⟨"Bank", "bank.h"⟩
    ⟨"com.bank", "Bank", "com_bank.h", "bank.h"⟩ htransfer
  exact ⟨hlookUp, by decide, hjava (by decide) (by decide), htransfer,
    hcsharp (by decide) (by decide), hobjc (by decide) (by decide) (by decide)⟩

/-- A procedure with outputs that are called like the member and the property of the result
code. -/
def recoded : Procedure :=
  ⟨"recoded", [⟨"__rc", .integer, true, .outOnly, none, false⟩,
      ⟨"resultCode", .integer, true, .outOnly, none, false⟩], none, [], some true, false⟩

/-- Both are written twice. -/
theorem outputs_collide_recoded :
    (recoded.args.map (·.name)).Nodup ∧
      (∀ a ∈ recoded.args, a.binding = .outOnly ∧ a.type ≠ .object) ∧
      (⟨"cql_int32", "__rc", false⟩ ∈ ReturnRow.members recoded ∧
        (writes "row" ((CSharpNative.entryPoint ⟨"Codes", "codes.h"⟩ recoded).run
          fun _ _ => false).steps).count "__rc" = 2 ∧
        (writes "row" ((JavaNative.entryPoint ⟨"codes", "Codes", "codes_jni.h", "codes.h"⟩
          recoded).run fun _ _ => false).steps).count "__rc" = 2) ∧
      .property "assign" "int" "resultCode" ∈
        (ObjcClasses.returnInterface false recoded).promises ∧
        (writes "_result" ((ObjcClasses.function recoded).run fun _ _ => false).steps).count
          "resultCode" = 2 := by
  refine ⟨by decide, by decide, ⟨by decide, by decide, by decide⟩, by decide, by decide⟩

end CqlGlue
