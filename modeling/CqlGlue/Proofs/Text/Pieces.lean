import CqlGlue.Text.Pieces

/-!
# Cutting texts that were put together

Cutting at a separator undoes putting parts together with it, as long as the parts do not hold
it. For a separator of several characters an occurrence could also begin in one part and end in
the next; a character between them that the separator does not have rules this out.

## Main statements
* `splitChar_intercalate` undoes putting lines together.
* `infix_append_cons` finds an occurrence in one of two parts.
* `splitFirst_eq_none_iff` and `splitLast_eq_none_iff` say when there is nothing to cut at.
* `not_infix_of_splitFirst` and `not_infix_of_splitLast` say what a cut leaves uncut.
* `splitFirst_append` says that what stands behind a text does not change where it is cut, and
  `splitLast_append` the same of what stands in front of it.
* `intercalate_induction` carries a property from parts to the text put together from them.
* `intercalate_flatMap` puts parts together in groups.
-/

namespace CqlGlue.Text

theorem splitChar_of_not_mem {sep : Char} {cs : List Char} (h : sep ∉ cs) :
    splitChar sep cs = [cs] := by
  induction cs with
  | nil => rfl
  | cons c cs ih =>
    rw [List.mem_cons, not_or] at h
    rw [splitChar, if_neg (Ne.symm h.1), ih h.2]

/-- The parts do not hold the separator and hold what the text holds. -/
theorem mem_splitChar {sep : Char} {cs part : List Char} (h : part ∈ splitChar sep cs) :
    sep ∉ part ∧ part ⊆ cs := by
  induction cs generalizing part with
  | nil =>
    rw [splitChar, List.mem_singleton] at h
    rw [h]
    exact ⟨List.not_mem_nil, List.nil_subset _⟩
  | cons c cs ih =>
    rw [splitChar] at h
    split at h
    · rcases List.mem_cons.1 h with rfl | h
      · exact ⟨List.not_mem_nil, List.nil_subset _⟩
      · exact ⟨(ih h).1, List.subset_cons_of_subset _ (ih h).2⟩
    · rename_i hc
      split at h
      · rename_i hnil
        exact absurd hnil (splitChar_ne_nil sep cs)
      · rename_i first others hparts
        rw [hparts] at ih
        rcases List.mem_cons.1 h with rfl | h
        · obtain ⟨hsep, hsub⟩ := ih List.mem_cons_self
          refine ⟨?_, List.cons_subset_cons _ hsub⟩
          rw [List.mem_cons, not_or]
          exact ⟨Ne.symm hc, hsep⟩
        · obtain ⟨hsep, hsub⟩ := ih (List.mem_cons_of_mem _ h)
          exact ⟨hsep, List.subset_cons_of_subset _ hsub⟩

theorem splitChar_append_cons {sep : Char} {cs : List Char} (h : sep ∉ cs) (rest : List Char) :
    splitChar sep (cs ++ sep :: rest) = cs :: splitChar sep rest := by
  induction cs with
  | nil => rw [List.nil_append, splitChar, if_pos rfl]
  | cons c cs ih =>
    rw [List.mem_cons, not_or] at h
    rw [List.cons_append, splitChar, if_neg (Ne.symm h.1), ih h.2]

theorem splitChar_intercalate {sep : Char} {parts : List (List Char)} (hne : parts ≠ [])
    (h : ∀ part ∈ parts, sep ∉ part) : splitChar sep ([sep].intercalate parts) = parts := by
  induction parts with
  | nil => exact absurd rfl hne
  | cons part parts ih =>
    cases parts with
    | nil =>
      rw [List.intercalate_singleton]
      exact splitChar_of_not_mem (h part List.mem_cons_self)
    | cons part' parts =>
      rw [List.intercalate_cons_cons, List.append_assoc, List.singleton_append,
        splitChar_append_cons (h part List.mem_cons_self),
        ih (List.cons_ne_nil _ _) fun p hp => h p (List.mem_cons_of_mem _ hp)]

/-- What holds of the parts, and of two texts with the separator between them, holds of the
text put together. -/
theorem intercalate_induction {P : List Char → Prop} {sep : List Char}
    (hjoin : ∀ a b, P a → P b → P (a ++ sep ++ b)) {parts : List (List Char)}
    (hne : parts ≠ []) (h : ∀ part ∈ parts, P part) : P (sep.intercalate parts) := by
  induction parts with
  | nil => exact absurd rfl hne
  | cons part parts ih =>
    cases parts with
    | nil =>
      rw [List.intercalate_singleton]
      exact h part List.mem_cons_self
    | cons part' parts =>
      rw [List.intercalate_cons_cons]
      exact hjoin _ _ (h part List.mem_cons_self)
        (ih (List.cons_ne_nil _ _) fun p hp => h p (List.mem_cons_of_mem _ hp))

theorem intercalate_append {sep : List Char} {parts parts' : List (List Char)}
    (hne : parts ≠ []) (hne' : parts' ≠ []) :
    sep.intercalate (parts ++ parts') = sep.intercalate parts ++ sep ++ sep.intercalate parts' := by
  induction parts with
  | nil => exact absurd rfl hne
  | cons part parts ih =>
    cases parts with
    | nil => rw [List.singleton_append, List.intercalate_cons_of_ne_nil hne',
        List.intercalate_singleton]
    | cons part' parts =>
      rw [List.cons_append, List.intercalate_cons_of_ne_nil (by simp),
        ih (List.cons_ne_nil _ _), List.intercalate_cons_cons]
      simp only [List.append_assoc]

/-- Parts may be put together in groups, as long as no group is empty. -/
theorem intercalate_flatMap {α : Type} {sep : List Char} {f : α → List (List Char)}
    {items : List α} (h : ∀ a ∈ items, f a ≠ []) :
    sep.intercalate (items.flatMap f) =
      sep.intercalate (items.map fun a => sep.intercalate (f a)) := by
  induction items with
  | nil => rfl
  | cons a items ih =>
    have hrest := ih fun b hb => h b (List.mem_cons_of_mem _ hb)
    rw [List.flatMap_cons, List.map_cons]
    cases items with
    | nil => rw [List.flatMap_nil, List.append_nil, List.map_nil, List.intercalate_singleton]
    | cons b items =>
      have hb : (b :: items).flatMap f ≠ [] := by
        rw [List.flatMap_cons]
        have := h b (by simp)
        simp [this]
      rw [intercalate_append (h a List.mem_cons_self) hb, hrest,
        List.intercalate_cons_of_ne_nil (by simp)]

/-! ## Occurrences -/

/-- A text without the character in the middle stands on one side of it. -/
theorem infix_append_cons {t a b : List Char} {c : Char} (hc : c ∉ t)
    (h : t <:+: a ++ c :: b) : t <:+: a ∨ t <:+: b := by
  obtain ⟨x, y, hxy⟩ := h
  rcases List.append_eq_append_iff.1 hxy with ⟨a', rfl, -⟩ | ⟨rest, hrest, hy⟩
  · exact .inl ⟨x, a', rfl⟩
  · cases rest with
    | nil => exact .inl ⟨x, [], by rw [List.append_nil, hrest, List.append_nil]⟩
    | cons d rest =>
      cases hy
      rcases List.append_eq_append_iff.1 hrest with ⟨a', -, ht⟩ | ⟨x', rfl, hx'⟩
      · exact absurd (ht ▸ List.mem_append_right a' List.mem_cons_self) hc
      · cases x' with
        | nil =>
          rw [List.nil_append] at hx'
          exact absurd (hx' ▸ List.mem_cons_self) hc
        | cons d x' =>
          cases hx'
          exact .inr ⟨x', y, rfl⟩

/-- A text without the characters in the middle stands on one side of them. -/
theorem infix_append_append {t a seps b : List Char} (hne : t ≠ []) (hseps : seps ≠ [])
    (hc : ∀ c ∈ seps, c ∉ t) (h : t <:+: a ++ seps ++ b) : t <:+: a ∨ t <:+: b := by
  induction seps generalizing a with
  | nil => exact absurd rfl hseps
  | cons c seps ih =>
    rw [List.append_assoc, List.cons_append] at h
    rcases infix_append_cons (hc c List.mem_cons_self) h with h | h
    · exact .inl h
    · cases seps with
      | nil => exact .inr h
      | cons d seps =>
        rw [← List.nil_append (d :: seps)] at h
        rcases ih (List.cons_ne_nil _ _) (fun e he => hc e (List.mem_cons_of_mem _ he)) h
          with h | h
        · exact absurd (List.infix_nil.1 h) hne
        · exact .inr h

theorem dropText?_eq_none_iff {t cs : List Char} : dropText? t cs = none ↔ ¬ t <+: cs := by
  constructor
  · rintro hnone ⟨rest, hrest⟩
    rw [dropText?_eq_some_iff.2 hrest.symm] at hnone
    cases hnone
  · intro h
    cases hdrop : dropText? t cs with
    | none => rfl
    | some rest => exact absurd ⟨rest, (dropText?_eq_some_iff.1 hdrop).symm⟩ h


/-- A literal without the character in it does not reach over the character. -/
theorem dropText?_append_cons {t : List Char} {sep : Char} (h : sep ∉ t) (a b : List Char) :
    dropText? t (a ++ sep :: b) = (dropText? t a).map (· ++ sep :: b) := by
  induction t generalizing a with
  | nil => rfl
  | cons c t ih =>
    rw [List.mem_cons, not_or] at h
    cases a with
    | nil =>
      rw [List.nil_append, dropText?, dropText?, if_neg (Ne.symm h.1)]
      rfl
    | cons d a =>
      rw [List.cons_append, dropText?, dropText?]
      split
      · exact ih h.2 a
      · rfl

/-! ## Cutting at the first occurrence -/

theorem splitFirst_eq_none_iff {t cs : List Char} : splitFirst t cs = none ↔ ¬ t <:+: cs := by
  induction cs with
  | nil => rw [splitFirst, Option.map_eq_none_iff, dropText?_eq_none_iff, List.prefix_nil,
      List.infix_nil]
  | cons c cs ih =>
    rw [List.infix_cons_iff, not_or, ← ih, ← dropText?_eq_none_iff, splitFirst]
    cases dropText? t (c :: cs) with
    | none => simp
    | some rest => simp

theorem eq_append_of_splitFirst {t cs a b : List Char} (h : splitFirst t cs = some (a, b)) :
    cs = a ++ t ++ b := by
  induction cs generalizing a with
  | nil =>
    rw [splitFirst, Option.map_eq_some_iff] at h
    obtain ⟨rest, hdrop, heq⟩ := h
    cases heq
    rw [List.nil_append]
    exact dropText?_eq_some_iff.1 hdrop
  | cons c cs ih =>
    rw [splitFirst] at h
    split at h
    · rename_i rest hdrop
      cases h
      rw [List.nil_append]
      exact dropText?_eq_some_iff.1 hdrop
    · rw [Option.map_eq_some_iff] at h
      obtain ⟨⟨a', b'⟩, hcut, heq⟩ := h
      cases heq
      rw [List.cons_append, List.cons_append, ← ih hcut]

/-- What stands behind a text does not change where the text is cut. -/
theorem splitFirst_append {t cs a b : List Char} (h : splitFirst t cs = some (a, b))
    (after : List Char) : splitFirst t (cs ++ after) = some (a, b ++ after) := by
  induction cs generalizing a with
  | nil =>
    rw [splitFirst, Option.map_eq_some_iff] at h
    obtain ⟨rest, hdrop, heq⟩ := h
    cases heq
    obtain ⟨rfl, rfl⟩ := List.append_eq_nil_iff.1 (dropText?_eq_some_iff.1 hdrop).symm
    cases after <;> rfl
  | cons c cs ih =>
    rw [splitFirst] at h
    rw [List.cons_append, splitFirst]
    split at h
    · rename_i rest hdrop
      cases h
      have heq : c :: (cs ++ after) = t ++ (b ++ after) := by
        rw [← List.cons_append, dropText?_eq_some_iff.1 hdrop, List.append_assoc]
      rw [dropText?_eq_some_iff.2 heq]
    · rename_i hdrop
      rw [Option.map_eq_some_iff] at h
      obtain ⟨⟨a', b'⟩, hcut, heq⟩ := h
      cases heq
      -- The occurrence at the cut is complete, so none that begins before it reaches behind it.
      have hnone : dropText? t (c :: (cs ++ after)) = none := by
        rw [dropText?_eq_none_iff, ← List.cons_append]
        intro hstart
        refine dropText?_eq_none_iff.1 hdrop
          (List.prefix_of_prefix_length_le hstart (List.prefix_append _ _) ?_)
        rw [eq_append_of_splitFirst hcut]
        simp only [List.length_cons, List.length_append]
        omega
      rw [hnone, ih hcut]
      rfl

/-- A text is cut in front of the first occurrence of a character. -/
theorem splitFirst_append_cons {sep : Char} {cs : List Char} (h : sep ∉ cs) (rest : List Char) :
    splitFirst [sep] (cs ++ sep :: rest) = some (cs, rest) := by
  induction cs with
  | nil => rw [List.nil_append, splitFirst, dropText?, if_pos rfl, dropText?]
  | cons c cs ih =>
    rw [List.mem_cons, not_or] at h
    rw [List.cons_append, splitFirst, dropText?, if_neg h.1, ih h.2]
    rfl

/-- The text is cut at no later occurrence. -/
theorem not_infix_of_splitFirst {t cs a b : List Char} (hne : t ≠ [])
    (h : splitFirst t cs = some (a, b)) : ¬ t <:+: a := by
  intro hwithin
  cases hcut : splitFirst t a with
  | none => exact splitFirst_eq_none_iff.1 hcut hwithin
  | some p =>
    obtain ⟨a', b'⟩ := p
    have hcut' := splitFirst_append hcut (t ++ b)
    rw [← List.append_assoc, ← eq_append_of_splitFirst h, h] at hcut'
    have ha : a = a' := congrArg Prod.fst (Option.some.inj hcut')
    have hlength := congrArg List.length (eq_append_of_splitFirst hcut)
    have hpos := List.length_pos_iff.2 hne
    simp only [List.length_append, ← ha] at hlength
    omega

/-! ## Cutting at the last occurrence -/

/-- A text without an occurrence is not cut, and any other text is. -/
theorem splitLast_eq_none_iff {t cs : List Char} : splitLast t cs = none ↔ ¬ t <:+: cs := by
  induction cs with
  | nil => rw [splitLast, Option.map_eq_none_iff, dropText?_eq_none_iff, List.prefix_nil,
      List.infix_nil]
  | cons c cs ih =>
    rw [List.infix_cons_iff, not_or, ← ih, ← dropText?_eq_none_iff, splitLast]
    cases splitLast t cs with
    | none => simp
    | some p => simp

theorem eq_append_of_splitLast {t cs a b : List Char} (h : splitLast t cs = some (a, b)) :
    cs = a ++ t ++ b := by
  induction cs generalizing a with
  | nil =>
    rw [splitLast, Option.map_eq_some_iff] at h
    obtain ⟨rest, hdrop, heq⟩ := h
    cases heq
    rw [List.nil_append]
    exact dropText?_eq_some_iff.1 hdrop
  | cons c cs ih =>
    rw [splitLast] at h
    split at h
    · rename_i p hcut
      obtain ⟨a', b'⟩ := p
      cases h
      rw [List.cons_append, List.cons_append, ← ih hcut]
    · rw [Option.map_eq_some_iff] at h
      obtain ⟨rest, hdrop, heq⟩ := h
      cases heq
      rw [List.nil_append]
      exact dropText?_eq_some_iff.1 hdrop

/-- What stands in front of a text does not change where the text is cut. -/
theorem splitLast_append {t cs a b : List Char} (h : splitLast t cs = some (a, b))
    (front : List Char) : splitLast t (front ++ cs) = some (front ++ a, b) := by
  induction front with
  | nil => exact h
  | cons c front ih => rw [List.cons_append, splitLast, ih, List.cons_append]

/-- The text is cut at no earlier occurrence. -/
theorem not_infix_of_splitLast {t cs a b : List Char} (hne : t ≠ [])
    (h : splitLast t cs = some (a, b)) : ¬ t <:+: b := by
  induction cs generalizing a with
  | nil =>
    obtain ⟨-, hb⟩ := List.append_eq_nil_iff.1 (eq_append_of_splitLast h).symm
    rw [hb, List.infix_nil]
    exact hne
  | cons c cs ih =>
    rw [splitLast] at h
    split at h
    · rename_i p hcut
      obtain ⟨a', b'⟩ := p
      cases h
      exact ih hcut
    · rename_i hnone
      rw [Option.map_eq_some_iff] at h
      obtain ⟨rest, hdrop, heq⟩ := h
      cases heq
      -- An occurrence behind the first character would have been found before this one.
      intro hwithin
      refine splitLast_eq_none_iff.1 hnone (hwithin.trans ?_)
      obtain ⟨d, t, rfl⟩ := List.exists_cons_of_ne_nil hne
      have hcs := (List.cons.inj (dropText?_eq_some_iff.1 hdrop)).2
      exact ⟨t, [], by rw [List.append_nil]; exact hcs.symm⟩

end CqlGlue.Text
