import CqlGlue.Text.Blank

/-!
# Trimming

Trimming takes away blanks and nothing else, so a text with a visible character at either end
stays as it is, and blanks put around a text do not show after trimming.

## Main definitions
* `AllBlank` are the texts made of blanks.
* `Solid` are the texts with a visible character at either end.

## Main statements
* `Solid.trim_eq` leaves such a text alone.
* `exists_blank_append` and `exists_blank_trim_blank` say what trimming takes away.
* `Solid.trim_append` takes blanks away at both ends.
-/

namespace CqlGlue.Text

/-- A text that holds nothing but blanks. -/
def AllBlank (cs : List Char) : Prop := ∀ c ∈ cs, isBlank c = true

instance (cs : List Char) : Decidable (AllBlank cs) :=
  decidable_of_iff (cs.all isBlank = true) List.all_eq_true

/-- A text with a visible character at either end. -/
structure Solid (cs : List Char) : Prop where
  ne_nil : cs ≠ []
  head : ∀ c ∈ cs.head?, isBlank c = false
  last : ∀ c ∈ cs.getLast?, isBlank c = false

instance (cs : List Char) : Decidable (Solid cs) :=
  decidable_of_iff (cs ≠ [] ∧ cs.head?.any isBlank = false ∧ cs.getLast?.any isBlank = false) <| by
    simp only [Option.any_eq_false]
    exact ⟨fun h => ⟨h.1, h.2.1, h.2.2⟩, fun h => ⟨h.ne_nil, h.head, h.last⟩⟩

variable {cs blanks : List Char}

/-! ## In front -/

theorem trimLeft_eq_self (h : ∀ c ∈ cs.head?, isBlank c = false) : trimLeft cs = cs := by
  cases cs with
  | nil => rfl
  | cons c cs =>
    rw [trimLeft, List.dropWhile_cons, h c rfl]
    rfl

theorem trimLeft_blank_append (h : AllBlank blanks) (cs : List Char) :
    trimLeft (blanks ++ cs) = trimLeft cs :=
  List.dropWhile_append_of_pos h

theorem trimLeft_of_allBlank (h : AllBlank blanks) : trimLeft blanks = [] := by
  have := trimLeft_blank_append h []
  rwa [List.append_nil] at this

theorem trimLeft_append_of_ne_nil (h : trimLeft cs ≠ []) (rest : List Char) :
    trimLeft (cs ++ rest) = trimLeft cs ++ rest := by
  rw [trimLeft, List.dropWhile_append, if_neg (by simpa [trimLeft] using h)]
  rfl

/-- What is taken away in front is blank. -/
theorem exists_blank_append (cs : List Char) :
    ∃ blanks, AllBlank blanks ∧ cs = blanks ++ trimLeft cs := by
  refine ⟨cs.takeWhile isBlank, ?_, List.takeWhile_append_dropWhile.symm⟩
  exact List.all_eq_true.1 List.all_takeWhile

theorem trimLeft_eq_nil_iff : trimLeft cs = [] ↔ AllBlank cs := by
  refine ⟨fun h => ?_, trimLeft_of_allBlank⟩
  obtain ⟨blanks, hblanks, heq⟩ := exists_blank_append cs
  rw [h, List.append_nil] at heq
  rwa [heq]

/-- What can be seen is not taken away. -/
theorem mem_trimLeft {c : Char} (hc : c ∈ cs) (hvisible : isBlank c = false) :
    c ∈ trimLeft cs := by
  rw [← List.takeWhile_append_dropWhile (p := isBlank) (l := cs), List.mem_append] at hc
  refine hc.resolve_left fun hmem => ?_
  have hblank := List.all_eq_true.1 (List.all_takeWhile (p := isBlank) (l := cs)) c hmem
  exact absurd (hblank.symm.trans hvisible) (by decide)

theorem head_trimLeft (cs : List Char) : ∀ c ∈ (trimLeft cs).head?, isBlank c = false := by
  intro c hc
  have := List.head?_dropWhile_not isBlank cs
  rw [← trimLeft, hc] at this
  simpa using this

/-! ## At the end -/

theorem trimRight_eq_reverse (cs : List Char) : trimRight cs = (trimLeft cs.reverse).reverse := rfl

theorem AllBlank.reverse (h : AllBlank blanks) : AllBlank blanks.reverse :=
  fun c hc => h c (List.mem_reverse.1 hc)

theorem trimRight_eq_self (h : ∀ c ∈ cs.getLast?, isBlank c = false) : trimRight cs = cs := by
  rw [trimRight_eq_reverse, trimLeft_eq_self (by simpa using h), List.reverse_reverse]

/-- Only blanks are taken away. -/
theorem exists_append_blank (cs : List Char) :
    ∃ blanks, AllBlank blanks ∧ cs = trimRight cs ++ blanks := by
  obtain ⟨blanks, hblanks, heq⟩ := exists_blank_append cs.reverse
  refine ⟨blanks.reverse, hblanks.reverse, ?_⟩
  rw [trimRight_eq_reverse, ← List.reverse_append, ← heq, List.reverse_reverse]

theorem trimRight_eq_nil_iff : trimRight cs = [] ↔ AllBlank cs := by
  rw [trimRight_eq_reverse, List.reverse_eq_nil_iff, trimLeft_eq_nil_iff]
  simp only [AllBlank, List.mem_reverse]

theorem last_trimRight (cs : List Char) : ∀ c ∈ (trimRight cs).getLast?, isBlank c = false := by
  intro c hc
  rw [trimRight_eq_reverse, List.getLast?_reverse] at hc
  exact head_trimLeft _ c hc

theorem trimRight_append_blank (h : AllBlank blanks) (cs : List Char) :
    trimRight (cs ++ blanks) = trimRight cs := by
  rw [trimRight_eq_reverse, List.reverse_append, trimLeft_blank_append h.reverse,
    trimRight_eq_reverse]

/-! ## At both ends -/

theorem trim_eq_self (hhead : ∀ c ∈ cs.head?, isBlank c = false)
    (hlast : ∀ c ∈ cs.getLast?, isBlank c = false) : trim cs = cs := by
  rw [trim, trimLeft_eq_self hhead, trimRight_eq_self hlast]

theorem trim_of_allBlank (h : AllBlank blanks) : trim blanks = [] := by
  rw [trim, trimLeft_of_allBlank h]
  rfl

theorem trim_eq_nil_iff : trim cs = [] ↔ AllBlank cs := by
  rw [trim, trimRight_eq_nil_iff]
  obtain ⟨blanks, hblanks, heq⟩ := exists_blank_append cs
  refine ⟨fun h c hc => ?_, fun h c hc => h c ((List.dropWhile_sublist _).subset hc)⟩
  rw [heq] at hc
  rcases List.mem_append.1 hc with hc | hc
  · exact hblanks c hc
  · exact h c hc

theorem trim_trimLeft (cs : List Char) : trim (trimLeft cs) = trim cs := by
  rw [trim, trim, trimLeft_eq_self (head_trimLeft cs)]

theorem trim_append_blank (h : AllBlank blanks) (cs : List Char) :
    trim (cs ++ blanks) = trim cs := by
  by_cases hcs : AllBlank cs
  · have hall : AllBlank (cs ++ blanks) := fun c hc =>
      (List.mem_append.1 hc).elim (hcs c) (h c)
    rw [trim_of_allBlank hall, trim_of_allBlank hcs]
  · rw [trim, trimLeft_append_of_ne_nil fun hnil => hcs (trimLeft_eq_nil_iff.1 hnil),
      trimRight_append_blank h, trim]

theorem trim_trimRight (cs : List Char) : trim (trimRight cs) = trim cs := by
  obtain ⟨blanks, hblanks, heq⟩ := exists_append_blank cs
  conv => rhs; rw [heq]
  exact (trim_append_blank hblanks _).symm

theorem head_trim (cs : List Char) : ∀ c ∈ (trim cs).head?, isBlank c = false := by
  intro c hc
  obtain ⟨back, -, heq⟩ := exists_append_blank (trimLeft cs)
  refine head_trimLeft cs c ?_
  rw [heq, List.head?_append, ← trim, hc]
  rfl

theorem last_trim (cs : List Char) : ∀ c ∈ (trim cs).getLast?, isBlank c = false :=
  last_trimRight (trimLeft cs)

theorem trim_trim (cs : List Char) : trim (trim cs) = trim cs :=
  trim_eq_self (head_trim cs) (last_trim cs)

/-- Trimming takes away blanks at either end. -/
theorem exists_blank_trim_blank (cs : List Char) :
    ∃ front back, AllBlank front ∧ AllBlank back ∧ cs = front ++ trim cs ++ back := by
  obtain ⟨front, hfront, heq⟩ := exists_blank_append cs
  obtain ⟨back, hback, heq'⟩ := exists_append_blank (trimLeft cs)
  refine ⟨front, back, hfront, hback, ?_⟩
  rw [List.append_assoc, trim, ← heq']
  exact heq

theorem trim_subset (cs : List Char) : trim cs ⊆ cs := by
  obtain ⟨front, back, -, -, heq⟩ := exists_blank_trim_blank cs
  intro c hc
  rw [heq]
  exact List.mem_append_left _ (List.mem_append_right _ hc)

namespace Solid

variable (h : Solid cs)
include h

theorem trim_eq : trim cs = cs := trim_eq_self h.head h.last

omit h in
theorem trimmed_eq {text : String} (h : Solid text.toList) : trimmed text = text := by
  rw [trimmed, h.trim_eq, String.ofList_toList]

omit h in
theorem ne_empty {text : String} (h : Solid text.toList) : text ≠ "" := by
  rintro rfl
  exact h.ne_nil rfl

theorem trimLeft_append (rest : List Char) : trimLeft (cs ++ rest) = cs ++ rest := by
  have hcs : trimLeft cs = cs := trimLeft_eq_self h.head
  rw [trimLeft_append_of_ne_nil (by rw [hcs]; exact h.ne_nil), hcs]

/-- Blanks around the text are taken away. -/
theorem trim_append {blanks' : List Char} (hblanks : AllBlank blanks)
    (hblanks' : AllBlank blanks') : trim (blanks ++ cs ++ blanks') = cs := by
  rw [trim, List.append_assoc, trimLeft_blank_append hblanks, h.trimLeft_append,
    trimRight_append_blank hblanks', trimRight_eq_self h.last]

/-- Two such texts with anything between them. -/
theorem append {rest : List Char} (middle : List Char) (hrest : Solid rest) :
    Solid (cs ++ middle ++ rest) where
  ne_nil hnil := h.ne_nil (List.append_eq_nil_iff.1 (List.append_eq_nil_iff.1 hnil).1).1
  head c hc := by
    cases cs with
    | nil => exact absurd rfl h.ne_nil
    | cons d cs => exact h.head c hc
  last c hc := by
    have hlast := List.getLast?_eq_some_getLast hrest.ne_nil
    rw [List.getLast?_append, hlast, Option.some_or] at hc
    exact hrest.last c (hlast ▸ hc)

end Solid

end CqlGlue.Text
