import Mathlib.Data.List.Basic

/-!
# Characters that a text lacks

Most of what a reader of code has to know about a name or a comment is that some characters do not
occur in it.

## Main statements
* `lacks_append` and `lacks_intercalate` are about texts made of texts.
-/

namespace CqlGlue.Text

/-- None of some characters occurs in a text. -/
def Lacks (chars : List Char) (text : String) : Prop := ∀ c ∈ text.toList, c ∉ chars

-- Decided by a walk over the text: an instance for all characters would be tried first.
instance (chars : List Char) (text : String) : Decidable (Lacks chars text) :=
  decidable_of_iff (text.toList.all fun c => !chars.contains c) (by simp [Lacks])

variable {chars : List Char}

/-- A literal need not be decoded to look at its characters. -/
theorem Lacks.ofList {cs : List Char} (h : cs.all fun c => !chars.contains c) :
    Lacks chars (String.ofList cs) := by
  simpa [Lacks] using h

theorem Lacks.mono {text : String} (h : Lacks chars text) {fewer : List Char}
    (hsub : fewer ⊆ chars) : Lacks fewer text := fun c hc hmem => h c hc (hsub hmem)

theorem Lacks.not_mem {text : String} (h : Lacks chars text) {c : Char} (hc : c ∈ chars) :
    c ∉ text.toList := fun hmem => h c hmem hc

/-- What texts put together keep holds of texts with a separator between them. -/
theorem separated_induction {P : String → Prop} (hempty : P "")
    (happend : ∀ {a b}, P a → P b → P (a ++ b)) {separator : String} (hseparator : P separator)
    {xs : List String} (h : ∀ x ∈ xs, P x) : P (String.intercalate separator xs) := by
  induction xs with
  | nil => simpa using hempty
  | cons x xs ih =>
    have hx := h x List.mem_cons_self
    have hxs := ih fun y hy => h y (List.mem_cons_of_mem x hy)
    cases xs with
    | nil => simpa using hx
    | cons y xs =>
      rw [String.intercalate_cons_cons]
      exact happend (happend hx hseparator) hxs

theorem lacks_append {a b : String} : Lacks chars (a ++ b) ↔ Lacks chars a ∧ Lacks chars b := by
  simp only [Lacks, String.toList_append, List.forall_mem_append]

theorem lacks_intercalate {separator : String} (h : Lacks chars separator) {xs : List String}
    (hxs : ∀ x ∈ xs, Lacks chars x) : Lacks chars (String.intercalate separator xs) :=
  separated_induction (.ofList rfl) (fun ha hb => lacks_append.2 ⟨ha, hb⟩) h hxs

end CqlGlue.Text
