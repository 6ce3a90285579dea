import CqlGlue.Listing.Inline
import CqlGlue.Proofs.Text.Pieces
import CqlGlue.Proofs.Text.Trim

/-!
# The separator between a name and its alternatives

The separator begins and ends with visible characters, and no two of its occurrences overlap. So
trimming leaves it where it is, a text is cut at its first and at its last occurrence as one
expects, and no occurrence reaches over a line end.

## Main definitions
* `SeparatesOnce` are the lines in which no separator stands behind another.

## Main statements
* `splitFirst_defines` and `splitLast_defines` cut a text that was put together.
* `trim_defines` trims a text with a separator in it.
* `definitions_of_some` and `definitions_of_none` take the first line off a text.
* `definitions_of_line` reads a single line.
-/

namespace CqlGlue.Listing

open Text

/-! ## Characters -/

theorem not_mem_defines_of_isBlank {c : Char} (h : isBlank c = true) : c ∉ defines := by
  intro hmem
  simp only [defines, List.mem_cons, List.not_mem_nil, or_false] at hmem
  rcases hmem with rfl | rfl | rfl <;> exact absurd h (by decide)

theorem not_infix_append_append {a seps b : List Char} (hseps : seps ≠ [])
    (hc : ∀ c ∈ seps, c ∉ defines) (ha : ¬ defines <:+: a) (hb : ¬ defines <:+: b) :
    ¬ defines <:+: a ++ seps ++ b := by
  intro h
  rcases infix_append_append (by decide) hseps hc h with h | h
  · exact ha h
  · exact hb h

theorem not_infix_of_allBlank {blanks : List Char} (h : AllBlank blanks) :
    ¬ defines <:+: blanks := fun hin =>
  not_mem_defines_of_isBlank (h ':' (hin.subset (by decide))) (by decide)

/-! ## Cutting -/

section

variable {front rest : List Char}

/-- A text without the separator in it does not make one with the separator behind it. -/
theorem dropText?_defines_append {c : Char}
    (h : ¬ defines <:+: c :: front) : dropText? defines (c :: front ++ defines ++ rest) = none := by
  cases hdrop : dropText? defines (c :: front ++ defines ++ rest) with
  | none => rfl
  | some after =>
    have heq := dropText?_eq_some_iff.1 hdrop
    rcases front with _ | ⟨d, _ | ⟨e, front⟩⟩
    · simp [defines] at heq
    · simp [defines] at heq
    · simp only [List.cons_append, defines, List.nil_append, List.cons.injEq] at heq
      obtain ⟨rfl, rfl, rfl, -⟩ := heq
      exact absurd ⟨[], front, rfl⟩ h

theorem splitFirst_defines (h : ¬ defines <:+: front) (rest : List Char) :
    splitFirst defines (front ++ defines ++ rest) = some (front, rest) := by
  induction front with
  | nil => rfl
  | cons c front ih =>
    have hfront : ¬ defines <:+: front := fun hin =>
      h (hin.trans (List.suffix_cons c front).isInfix)
    have hnone : dropText? defines (c :: front ++ defines ++ rest) = none :=
      dropText?_defines_append h
    rw [List.cons_append, List.cons_append] at hnone ⊢
    rw [splitFirst, hnone, ih hfront]
    rfl

theorem splitLast_defines (h : ¬ defines <:+: rest) (front : List Char) :
    splitLast defines (front ++ defines ++ rest) = some (front, rest) := by
  induction front with
  | nil =>
    have h₁ : ¬ defines <:+: '=' :: rest := by
      intro hin
      rcases List.infix_cons_iff.1 hin with ⟨x, hx⟩ | hin
      · simp [defines] at hx
      · exact h hin
    have h₂ : ¬ defines <:+: ':' :: '=' :: rest := by
      intro hin
      rcases List.infix_cons_iff.1 hin with ⟨x, hx⟩ | hin
      · simp [defines] at hx
      · exact h₁ hin
    change splitLast defines (':' :: ':' :: '=' :: rest) = _
    rw [splitLast, splitLast_eq_none_iff.2 h₂]
    rfl
  | cons c front ih =>
    rw [List.cons_append, List.cons_append, splitLast, ih]

end

/-! ## Trimming -/

section

variable {cs blanks left right : List Char}

theorem infix_blank_append (h : AllBlank blanks) :
    defines <:+: blanks ++ cs ↔ defines <:+: cs := by
  refine ⟨fun hin => ?_, fun hin => hin.trans (List.suffix_append _ _).isInfix⟩
  induction blanks with
  | nil => exact hin
  | cons c blanks ih =>
    rcases List.infix_cons_iff.1 hin with hstart | hin
    · obtain ⟨rest, hrest⟩ := hstart
      obtain rfl : ':' = c := (List.cons.inj hrest).1
      exact absurd (h ':' List.mem_cons_self) (by decide)
    · exact ih (fun d hd => h d (List.mem_cons_of_mem _ hd)) hin

theorem infix_append_blank (h : AllBlank blanks) :
    defines <:+: cs ++ blanks ↔ defines <:+: cs := by
  refine ⟨fun hin => ?_, fun hin => hin.trans (List.prefix_append _ _).isInfix⟩
  cases blanks with
  | nil => rwa [List.append_nil] at hin
  | cons c blanks =>
    have hc := not_mem_defines_of_isBlank (h c List.mem_cons_self)
    rcases infix_append_cons hc hin with hin | hin
    · exact hin
    · exact absurd hin (not_infix_of_allBlank fun d hd => h d (List.mem_cons_of_mem _ hd))

theorem infix_trimLeft_iff : defines <:+: trimLeft cs ↔ defines <:+: cs := by
  obtain ⟨blanks, hblanks, heq⟩ := exists_blank_append cs
  conv => rhs; rw [heq]
  exact (infix_blank_append hblanks).symm

theorem infix_trim_iff : defines <:+: trim cs ↔ defines <:+: cs := by
  obtain ⟨blanks, hblanks, heq⟩ := exists_append_blank (trimLeft cs)
  refine Iff.trans ?_ infix_trimLeft_iff
  conv => rhs; rw [heq]
  exact (infix_append_blank hblanks).symm

theorem trimLeft_defines (left right : List Char) :
    trimLeft (left ++ (defines ++ right)) = trimLeft left ++ (defines ++ right) := by
  by_cases hleft : trimLeft left = []
  · rw [hleft, trimLeft_blank_append (trimLeft_eq_nil_iff.1 hleft)]
    rfl
  · exact trimLeft_append_of_ne_nil hleft _

theorem trimRight_defines (left right : List Char) :
    trimRight (left ++ (defines ++ right)) = left ++ (defines ++ trimRight right) := by
  obtain ⟨blanks, hblanks, heq⟩ := exists_append_blank right
  have hlast : ∀ c ∈ (left ++ (defines ++ trimRight right)).getLast?, isBlank c = false := by
    have hvisible := last_trimRight right
    intro c hc
    rw [List.getLast?_append, List.getLast?_append] at hc
    cases hright : (trimRight right).getLast? with
    | none =>
      rw [hright] at hc
      cases hc
      decide
    | some d =>
      rw [hright] at hc hvisible
      cases hc
      exact hvisible c rfl
  conv => lhs; rw [heq]
  rw [← List.append_assoc, ← List.append_assoc, trimRight_append_blank hblanks, List.append_assoc,
    trimRight_eq_self hlast]

/-- Trimming takes away what stands at either end of the two sides. -/
theorem trim_defines (left right : List Char) :
    trim (left ++ (defines ++ right)) = trimLeft left ++ (defines ++ trimRight right) := by
  rw [trim, trimLeft_defines, trimRight_defines]

end

/-! ## Lines -/

/-- Behind the first separator of the line stands no other. -/
def SeparatesOnce (line : List Char) : Prop := ∀ p ∈ splitFirst defines line, ¬ defines <:+: p.2

instance (line : List Char) : Decidable (SeparatesOnce line) :=
  inferInstanceAs (Decidable (∀ p ∈ splitFirst defines line, ¬ defines <:+: p.2))

section

variable {cs left right rest : List Char}

theorem separatesOnce_iff (h : ¬ defines <:+: left) :
    SeparatesOnce (left ++ (defines ++ right)) ↔ ¬ defines <:+: right := by
  rw [SeparatesOnce, ← List.append_assoc, splitFirst_defines h]
  simp

/-- Both sides of a line, as the first separator cuts it. -/
theorem splitLine_defines (h : ¬ defines <:+: left) (right : List Char) :
    Inliner.splitLine (left ++ (defines ++ right)) = some (trim left, trim right) := by
  rw [Inliner.splitLine, ← List.append_assoc, splitFirst_defines h]
  rfl

/-- The inliner takes both sides from a line without the blanks around it. -/
theorem splitLine_trim_defines (h : ¬ defines <:+: left) (right : List Char) :
    Inliner.splitLine (trim (left ++ (defines ++ right))) = some (trim left, trim right) := by
  have hleft : ¬ defines <:+: trimLeft left := fun hin => h (infix_trimLeft_iff.1 hin)
  rw [trim_defines, splitLine_defines hleft, trim_trimLeft, trim_trimRight]

/-- What follows a line begins with its line end. -/
theorem lineOf_append (h : '\n' ∉ cs) (hrest : ∀ c ∈ rest.head?, c = '\n') :
    lineOf (cs ++ rest) = cs ∧ afterLine (cs ++ rest) = rest := by
  have hcs : ∀ c ∈ cs, (c != '\n') = true := by
    intro c hc
    rw [bne_iff_ne]
    rintro rfl
    exact h hc
  rw [lineOf, afterLine, List.takeWhile_append_of_pos hcs, List.dropWhile_append_of_pos hcs]
  cases rest with
  | nil => exact ⟨List.append_nil cs, rfl⟩
  | cons c rest =>
    obtain rfl : c = '\n' := hrest c rfl
    exact ⟨List.append_nil cs, rfl⟩

/-- The separator does not reach over a line end. -/
theorem dropText?_line_append (hrest : ∀ c ∈ rest.head?, c = '\n') :
    dropText? defines (cs ++ rest) = (dropText? defines cs).map (· ++ rest) := by
  cases rest with
  | nil => simp
  | cons c rest =>
    obtain rfl : c = '\n' := hrest c rfl
    exact dropText?_append_cons (by decide) cs rest

end

/-! ## Definitions -/

section

variable {cs name after : List Char}

theorem definitions_nil : definitions [] = [] := by
  unfold definitions
  rfl

theorem definitions_of_some (h : splitDefinition cs = some (name, after)) :
    definitions cs =
      (name, lineOf (trimLeft after)) :: definitions (afterLine (trimLeft after)) := by
  conv => lhs; unfold definitions
  split
  · rename_i hsome
    cases h.symm.trans hsome
    rfl
  · rename_i hnone
    exact absurd (h.symm.trans hnone) (by simp)

/-- A text in which the first line defines nothing. -/
theorem definitions_of_none (h : splitDefinition cs = none) :
    definitions cs = definitions (afterLine cs).tail := by
  conv => lhs; unfold definitions
  split
  · rename_i hsome
    exact absurd (h.symm.trans hsome) (by simp)
  · split
    · rename_i hafter
      rw [hafter, List.tail_nil, definitions_nil]
    · rename_i c rest hafter
      have htail : (afterLine cs).tail = rest := by rw [hafter, List.tail_cons]
      exact congrArg definitions htail.symm

/-- A single line is cut at its last separator. -/
theorem definitions_of_line (h : '\n' ∉ cs) :
    definitions cs = ((splitLast defines cs).map fun p => (p.1, trimLeft p.2)).toList := by
  have hend : ∀ c ∈ ([] : List Char).head?, c = '\n' := by simp
  obtain ⟨hline, hafter⟩ := lineOf_append h hend
  rw [List.append_nil] at hline hafter
  have hsplit : splitDefinition cs = splitLast defines cs := by
    rw [splitDefinition, hafter, hline]
    change (splitLast defines cs).map (fun p => (p.1, p.2 ++ [])) = splitLast defines cs
    simp
  cases hcut : splitLast defines cs with
  | none =>
    rw [definitions_of_none (hsplit.trans hcut), hafter, List.tail_nil, definitions_nil]
    rfl
  | some p =>
    obtain ⟨left, right⟩ := p
    have hright : '\n' ∉ trimLeft right := fun hmem => h <| by
      rw [eq_append_of_splitLast hcut]
      exact List.mem_append_right _ ((List.dropWhile_sublist _).subset hmem)
    obtain ⟨hbody, hbehind⟩ := lineOf_append hright hend
    rw [List.append_nil] at hbody hbehind
    rw [definitions_of_some (hsplit.trans hcut), hbody, hbehind, definitions_nil]
    rfl

end

end CqlGlue.Listing
