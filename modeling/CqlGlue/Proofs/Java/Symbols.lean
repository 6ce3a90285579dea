import CqlGlue.Proofs.Java.Mangling
import Mathlib.Data.List.Nodup

/-!
# Exported symbols that clash

The C file exports one function for each procedure, under the symbol of its native method. Escaping
a name loses nothing, so two symbols differ where the methods do. The method of a procedure that
gives nothing back has the name of the procedure, and that of any other one has `JNI` behind it.
Nothing keeps the two kinds of names apart, so a procedure that gives nothing back can be called
like the method of another one.

## Main definitions
* `exports` are the symbols of a schema.
* `TakesMethodOf` says that a procedure is called like the method of another one, and
  `KeepsMethodsApart` that none of a schema is.

## Main statements
* `symbol_injective` says that different methods have different symbols.
* `nodup_exports_iff` says when the symbols of a schema are distinct, and `not_nodup_exports_load`
  is a schema whose symbols are not.
-/

namespace CqlGlue.JavaNative

/-- The symbols that the C file of a schema exports, in order. -/
def exports (o : Options) (s : Schema) : List String := (entryPoints o s).map (·.symbol)

/-- The second procedure gives nothing back, and it is called like the native method of the first
one, which does. -/
def TakesMethodOf (p q : Procedure) : Prop :=
  p.hasResults = true ∧ q.hasResults = false ∧ q.name = p.name ++ "JNI"

instance (p q : Procedure) : Decidable (TakesMethodOf p q) :=
  inferInstanceAs (Decidable (_ ∧ _ ∧ _))

/-- No exported procedure is called like the native method of another one. -/
def KeepsMethodsApart (s : Schema) : Prop :=
  ∀ p ∈ s.wrapped, ∀ q ∈ s.wrapped, ¬ TakesMethodOf p q

instance (s : Schema) : Decidable (KeepsMethodsApart s) :=
  inferInstanceAs (Decidable (∀ p ∈ s.wrapped, ∀ q ∈ s.wrapped, ¬ TakesMethodOf p q))

/-! ## Symbols -/

/-- Different methods of a class have different symbols. -/
theorem symbol_injective (package className : String) :
    Function.Injective (symbol package className) := by
  intro method method' h
  exact escape_injective ((String.append_right_inj _).1 h)

/-- The name of a native method, by whether the procedure gives anything back. -/
theorem methodName_eq (p : Procedure) :
    methodName p = if p.hasResults then p.name ++ "JNI" else p.name := by
  rw [methodName, ReturnRow.hasResults_eq]
  cases ReturnRow.isEmpty p with
  | true => exact String.append_empty
  | false => rfl

theorem exports_eq (o : Options) (s : Schema) :
    exports o s = (s.wrapped.map methodName).map (symbol o.package o.className) := by
  rw [exports, entryPoints, List.map_map, List.map_map]
  rfl

/-- Two methods are called the same where the procedures are and are of the same kind, or where one
procedure takes the name of the method of the other. -/
theorem methodName_eq_iff {p q : Procedure} :
    methodName p = methodName q ↔
      (p.hasResults = q.hasResults ∧ p.name = q.name) ∨ TakesMethodOf p q ∨ TakesMethodOf q p := by
  rw [methodName_eq, methodName_eq, TakesMethodOf, TakesMethodOf]
  cases p.hasResults with
  | true =>
    cases q.hasResults with
    | true => simp
    | false => simp [eq_comm]
  | false =>
    cases q.hasResults with
    | true => simp
    | false => simp

/-! ## Schemas -/

/-- Where the exported procedures have distinct names, their symbols are distinct exactly where no
procedure that gives nothing back is called like the method of another one. -/
theorem nodup_exports_iff (o : Options) {s : Schema} (hnames : (s.wrapped.map (·.name)).Nodup) :
    (exports o s).Nodup ↔ KeepsMethodsApart s := by
  rw [exports_eq, List.nodup_map_iff (symbol_injective _ _),
    List.nodup_map_iff_inj_on hnames.of_map]
  constructor
  · intro h p hp q hq htakes
    obtain rfl : p = q := h p hp q hq (methodName_eq_iff.2 (.inr (.inl htakes)))
    exact absurd (htakes.1.symm.trans htakes.2.1) (by decide)
  · intro h p hp q hq hmethod
    rcases methodName_eq_iff.1 hmethod with ⟨-, hname⟩ | htakes | htakes
    · exact List.inj_on_of_nodup_map hnames hp hq hname
    · exact absurd htakes (h p hp q hq)
    · exact absurd htakes (h q hq p hp)

/-- A procedure of a given name without arguments, which gives back a result code or nothing. -/
def bare (name : String) (usesDatabase : Bool) : Procedure :=
  ⟨name, [], none, [], some usesDatabase, false⟩

/-- Procedures with names like those of methods. The ones called like `load` and `drop` with `JNI`
behind it are of the same kind as those without it, and an escaped underscore is no digit. -/
def store : Schema where
  queries := [bare "load" true]
  deletes := [bare "drop_1" false]
  inserts := [bare "loadJNI" true]
  generalInserts := []
  updates := [bare "drop_1JNI" false]
  general := [bare "drop" true]

/-- No procedure of the schema takes the name of a method. -/
theorem nodup_exports_store :
    (store.wrapped.map (·.name)).Nodup ∧
      (exports ⟨"com.acme", "Store", defaultJniHeader, defaultHeader⟩ store).Nodup := by
  have hnames : (store.wrapped.map (·.name)).Nodup := by decide
  exact ⟨hnames, (nodup_exports_iff _ hnames).2 (by decide)⟩

/-- A procedure with a result code, and one without that is called like the method of the first. -/
def load : Schema where
  queries := []
  deletes := []
  inserts := []
  generalInserts := []
  updates := []
  general := [bare "load" true, bare "loadJNI" false]

/-- Both procedures are exported under the same symbol. -/
theorem not_nodup_exports_load :
    IsQualifiedName "com.acme" ∧ IsIdentifier "Store" ∧
      (load.procedures.map (·.name)).Nodup ∧ (∀ p ∈ load.procedures, IsIdentifier p.name) ∧
      ¬ (exports ⟨"com.acme", "Store", defaultJniHeader, defaultHeader⟩ load).Nodup := by
  have hpackage : IsQualifiedName "com.acme" := ⟨["com", "acme"], by decide, by decide, by decide⟩
  exact ⟨hpackage, by decide, by decide, by decide, by decide +kernel⟩

end CqlGlue.JavaNative
