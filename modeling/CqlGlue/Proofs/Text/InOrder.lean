import Mathlib.Data.List.Basic

/-!
# Texts in order

A generated file is a text, while statements about it are made of its parts. `InOrder parts text`
says that the parts stand in the text one after the other, with anything between them.

## Main statements
* `InOrder.append`, `InOrder.join` and `InOrder.join_of_mem` are about texts made of texts.
-/

namespace CqlGlue.Text

/-- The texts of a list stand in a text in this order, without overlap. -/
inductive InOrder : List String → String → Prop where
  | nil (text : String) : InOrder [] text
  | cons (gap part : String) {parts : List String} {text : String} (rest : InOrder parts text) :
      InOrder (part :: parts) (gap ++ part ++ text)

namespace InOrder

theorem after {parts : List String} {text : String} (gap : String) (h : InOrder parts text) :
    InOrder parts (gap ++ text) := by
  cases h with
  | nil => exact .nil _
  | cons gap' part rest =>
    rw [← String.append_assoc, ← String.append_assoc]
    exact .cons (gap ++ gap') part rest

theorem append {parts parts' : List String} {text text' : String} (h : InOrder parts text)
    (h' : InOrder parts' text') : InOrder (parts ++ parts') (text ++ text') := by
  induction h with
  | nil text => exact h'.after text
  | cons gap part rest ih =>
    rw [String.append_assoc]
    exact .cons gap part ih

theorem before {parts : List String} {text : String} (h : InOrder parts text) (rest : String) :
    InOrder parts (text ++ rest) := by
  simpa using h.append (.nil rest)

/-- A text is in itself. -/
theorem self (text : String) : InOrder [text] text := by
  simpa using InOrder.cons "" text (.nil "")

/-- Of parts in order some are in order. -/
theorem sublist {parts parts' : List String} {text : String} (h : InOrder parts text)
    (hsub : parts'.Sublist parts) : InOrder parts' text := by
  induction h generalizing parts' with
  | nil text =>
    rw [List.sublist_nil.1 hsub]
    exact .nil text
  | cons gap part rest ih =>
    cases hsub with
    | cons _ hsub => exact (ih hsub).after (gap ++ part)
    | cons_cons _ hsub => exact .cons gap part (ih hsub)

/-- What stands in the pieces of a text stands in the text. -/
theorem join_flatMap {α : Type} {parts : α → List String} {piece : α → String} {xs : List α}
    (h : ∀ x ∈ xs, InOrder (parts x) (piece x)) :
    InOrder (xs.flatMap parts) (String.join (xs.map piece)) := by
  induction xs with
  | nil => exact .nil _
  | cons x xs ih =>
    rw [List.flatMap_cons, List.map_cons, String.join_cons]
    exact (h x List.mem_cons_self).append (ih fun y hy => h y (List.mem_cons_of_mem x hy))

/-- One part in each of the pieces of a text. -/
theorem join {α : Type} {part piece : α → String} {xs : List α}
    (h : ∀ x ∈ xs, InOrder [part x] (piece x)) :
    InOrder (xs.map part) (String.join (xs.map piece)) := by
  rw [List.map_eq_flatMap]
  exact join_flatMap h

/-- What stands in one of the pieces of a text stands in the text. -/
theorem join_of_mem {α : Type} {piece : α → String} {parts : List String} {xs : List α} {x : α}
    (hx : x ∈ xs) (h : InOrder parts (piece x)) :
    InOrder parts (String.join (xs.map piece)) := by
  obtain ⟨front, back, rfl⟩ := List.append_of_mem hx
  rw [List.map_append, List.map_cons, String.join_append, String.join_cons]
  exact (h.before _).after _

end InOrder

end CqlGlue.Text
