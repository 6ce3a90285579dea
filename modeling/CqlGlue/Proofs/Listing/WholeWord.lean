import CqlGlue.Listing.WholeWord
import CqlGlue.Proofs.Text.Pieces

/-!
# Whole words in texts put together

A word made of word characters occurs in a text put together from parts, with separators that
hold no word characters between them, exactly where it occurs in one of the parts. So it can be
searched and substituted part by part.

## Main definitions
* `IsWord` are the words that are looked for.

## Main statements
* `hasWord_append_append` searches part by part.
* `replaceWord_intercalate` substitutes part by part.
-/

namespace CqlGlue.Listing

open Text

/-- A text made of word characters, at least one of them. -/
structure IsWord (word : List Char) : Prop where
  ne_nil : word ≠ []
  wordChars : ∀ c ∈ word, isWordChar c = true

instance (word : List Char) : Decidable (IsWord word) :=
  decidable_of_iff (word ≠ [] ∧ word.all isWordChar = true)
    ⟨fun h => ⟨h.1, List.all_eq_true.1 h.2⟩, fun h => ⟨h.ne_nil, List.all_eq_true.2 h.wordChars⟩⟩

variable {word body : List Char} {sep : Char} {before : Option Char} {a b : List Char}

/-! ## One separator -/

/-- A character that is not a word character makes the same boundary as the end of the text. -/
theorem isBoundary_some_left (h : isWordChar sep = false) (after : Option Char) :
    isBoundary (some sep) after = isBoundary none after := by
  rw [isBoundary, isBoundary, Option.any_some, h]
  rfl

theorem isBoundary_some_right (h : isWordChar sep = false) (before : Option Char) :
    isBoundary before (some sep) = isBoundary before none := by
  rw [isBoundary, isBoundary, Option.any_some, h]
  rfl

theorem hasWordAfter_some (hsep : isWordChar sep = false) (cs : List Char) :
    hasWordAfter word (some sep) cs = hasWord word cs := by
  cases cs with
  | nil => rfl
  | cons c cs =>
    rw [hasWord, hasWordAfter, hasWordAfter, wordAt, wordAt, isBoundary_some_left hsep]

theorem replaceWordAfter_some (hsep : isWordChar sep = false) (cs : List Char) :
    replaceWordAfter word body 0 (some sep) cs = replaceWord word body cs := by
  cases cs with
  | nil => rfl
  | cons c cs =>
    rw [replaceWord, replaceWordAfter, replaceWordAfter, wordAt, wordAt,
      isBoundary_some_left hsep]

theorem wordAt_nil (hne : word ≠ []) (before : Option Char) : wordAt word before [] = false := by
  cases word with
  | nil => exact absurd rfl hne
  | cons c word => rfl

/-- An occurrence that ends in front of a seam, where the text behind the seam makes the same
boundary as the end of the text. -/
theorem wordAt_append {rest : List Char} (hne : word ≠ []) (hdrop : dropText? word a = some rest)
    (hb : ∀ last, isBoundary last b.head? = isBoundary last none) (before : Option Char) :
    wordAt word before (a ++ b) = wordAt word before a := by
  have ha : a = word ++ rest := dropText?_eq_some_iff.1 hdrop
  have hdrop' : dropText? word (a ++ b) = some (rest ++ b) := by
    rw [dropText?_eq_some_iff, ha, List.append_assoc]
  have hhead : (a ++ b).head? = a.head? := by
    cases a with
    | nil => exact absurd (List.append_eq_nil_iff.1 ha.symm).1 hne
    | cons c a => rfl
  have hrest : isBoundary word.getLast? (rest ++ b).head? =
      isBoundary word.getLast? rest.head? := by
    cases rest with
    | nil => exact hb _
    | cons c rest => rfl
  rw [wordAt, wordAt, hdrop, hdrop']
  dsimp only
  rw [hhead, hrest]

theorem length_le_of_wordAt {cs : List Char} (h : wordAt word before cs = true) :
    word.length ≤ cs.length := by
  rw [wordAt] at h
  split at h
  · rename_i rest hdrop
    rw [dropText?_eq_some_iff.1 hdrop, List.length_append]
    exact Nat.le_add_right _ _
  · cases h

/-- Nothing comes in that is not in the text or in what is put for the word. -/
theorem mem_replaceWordAfter {skip : Nat} {c : Char} {cs : List Char}
    (h : c ∈ replaceWordAfter word body skip before cs) : c ∈ cs ∨ c ∈ body := by
  induction cs generalizing skip before with
  | nil => cases h
  | cons d cs ih =>
    cases skip with
    | succ skip =>
      rw [replaceWordAfter] at h
      exact (ih h).imp_left (List.mem_cons_of_mem _)
    | zero =>
      rw [replaceWordAfter] at h
      split at h
      · rcases List.mem_append.1 h with h | h
        · exact .inr h
        · exact (ih h).imp_left (List.mem_cons_of_mem _)
      · rcases List.mem_cons.1 h with rfl | h
        · exact .inl List.mem_cons_self
        · exact (ih h).imp_left (List.mem_cons_of_mem _)

/-- Substitution in front of a seam that no occurrence reaches across. What remains to be skipped of
an occurrence lies before the seam. -/
theorem replaceWordAfter_append {skip : Nat} {result : List Char}
    (hat : ∀ before a, wordAt word before (a ++ b) = wordAt word before a)
    (hb : ∀ before, replaceWordAfter word body 0 before b = result) (hskip : skip ≤ a.length) :
    replaceWordAfter word body skip before (a ++ b) =
      replaceWordAfter word body skip before a ++ result := by
  induction a generalizing skip before with
  | nil =>
    obtain rfl : skip = 0 := Nat.le_zero.1 hskip
    rw [replaceWordAfter, List.nil_append, List.nil_append, hb]
  | cons c a ih =>
    cases skip with
    | succ skip =>
      rw [List.cons_append, replaceWordAfter, replaceWordAfter,
        ih (Nat.le_of_succ_le_succ hskip)]
    | zero =>
      have hhere := hat before (c :: a)
      rw [List.cons_append] at hhere ⊢
      rw [replaceWordAfter, hhere, replaceWordAfter]
      split
      · rename_i h
        have hlength : word.length - 1 ≤ a.length := Nat.sub_le_of_le_add (length_le_of_wordAt h)
        rw [ih hlength, List.append_assoc]
      · rw [ih (Nat.zero_le _), List.cons_append]

variable (hword : IsWord word) (hsep : isWordChar sep = false)
include hword hsep

theorem sep_not_mem : sep ∉ word := by
  intro h
  rw [hword.wordChars sep h] at hsep
  cases hsep

theorem wordAt_append_cons (before : Option Char) (a b : List Char) :
    wordAt word before (a ++ sep :: b) = wordAt word before a := by
  cases hdrop : dropText? word a with
  | none =>
    rw [wordAt, wordAt, dropText?_append_cons (sep_not_mem hword hsep), hdrop]
    rfl
  | some rest =>
    have hend : ∀ last, isBoundary last (sep :: b).head? = isBoundary last none :=
      isBoundary_some_right hsep
    exact wordAt_append hword.ne_nil hdrop hend before

theorem hasWordAfter_append_cons :
    hasWordAfter word before (a ++ sep :: b) =
      (hasWordAfter word before a || hasWord word b) := by
  induction a generalizing before with
  | nil =>
    have hat : wordAt word before ([] ++ sep :: b) = false := by
      rw [wordAt_append_cons hword hsep, wordAt_nil hword.ne_nil]
    rw [List.nil_append] at hat ⊢
    simp only [hasWordAfter, hat, hasWordAfter_some hsep]
  | cons c a ih =>
    have hat := wordAt_append_cons hword hsep before (c :: a) b
    rw [List.cons_append] at hat ⊢
    rw [hasWordAfter, hat, ih, hasWordAfter, Bool.or_assoc]

theorem replaceWordAfter_append_cons {skip : Nat} (hskip : skip ≤ a.length) :
    replaceWordAfter word body skip before (a ++ sep :: b) =
      replaceWordAfter word body skip before a ++ sep :: replaceWord word body b := by
  refine replaceWordAfter_append (fun before a => wordAt_append_cons hword hsep before a b) ?_ hskip
  intro before
  have hat : wordAt word before ([] ++ sep :: b) = false := by
    rw [wordAt_append_cons hword hsep, wordAt_nil hword.ne_nil]
  rw [List.nil_append] at hat
  simp only [replaceWordAfter, hat, replaceWordAfter_some hsep, Bool.false_eq_true, if_false]

theorem hasWord_append_cons :
    hasWord word (a ++ sep :: b) = (hasWord word a || hasWord word b) :=
  hasWordAfter_append_cons hword hsep

theorem replaceWord_append_cons :
    replaceWord word body (a ++ sep :: b) =
      replaceWord word body a ++ sep :: replaceWord word body b :=
  replaceWordAfter_append_cons hword hsep (Nat.zero_le _)

omit hsep

/-! ## Separators between parts -/

variable {seps : List Char} (hseps : ∀ c ∈ seps, isWordChar c = false) (hne : seps ≠ [])
include hseps hne

theorem hasWord_append_append :
    hasWord word (a ++ seps ++ b) = (hasWord word a || hasWord word b) := by
  induction seps generalizing a with
  | nil => exact absurd rfl hne
  | cons sep seps ih =>
    have hsep := hseps sep List.mem_cons_self
    rw [List.append_assoc, List.cons_append, hasWord_append_cons hword hsep]
    cases seps with
    | nil => rfl
    | cons sep' seps =>
      rw [← List.nil_append (sep' :: seps),
        ih (fun c hc => hseps c (List.mem_cons_of_mem _ hc)) (List.cons_ne_nil _ _)]
      rfl

theorem replaceWord_append_append :
    replaceWord word body (a ++ seps ++ b) =
      replaceWord word body a ++ seps ++ replaceWord word body b := by
  induction seps generalizing a with
  | nil => exact absurd rfl hne
  | cons sep seps ih =>
    have hsep := hseps sep List.mem_cons_self
    rw [List.append_assoc, List.cons_append, replaceWord_append_cons hword hsep,
      List.append_assoc, List.cons_append]
    cases seps with
    | nil => rfl
    | cons sep' seps =>
      rw [← List.nil_append (sep' :: seps),
        ih (fun c hc => hseps c (List.mem_cons_of_mem _ hc)) (List.cons_ne_nil _ _)]
      rfl

theorem replaceWord_intercalate (parts : List (List Char)) :
    replaceWord word body (seps.intercalate parts) =
      seps.intercalate (parts.map (replaceWord word body)) := by
  induction parts with
  | nil => rfl
  | cons part parts ih =>
    cases parts with
    | nil => rw [List.intercalate_singleton, List.map_singleton, List.intercalate_singleton]
    | cons part' parts =>
      rw [List.intercalate_cons_cons, replaceWord_append_append hword hseps hne, ih,
        List.map_cons, List.map_cons, List.map_cons, List.intercalate_cons_cons]

omit hseps hne

/-! ## The word itself -/

theorem wordAt_self : wordAt word none word = true := by
  have hdrop : dropText? word word = some [] :=
    dropText?_eq_some_iff.2 (List.append_nil word).symm
  have hhead : word.head?.any isWordChar = true := by
    rw [List.head?_eq_some_head hword.ne_nil, Option.any_some]
    exact hword.wordChars _ (List.head_mem hword.ne_nil)
  have hlast : word.getLast?.any isWordChar = true := by
    rw [List.getLast?_eq_some_getLast hword.ne_nil, Option.any_some]
    exact hword.wordChars _ (List.getLast_mem hword.ne_nil)
  rw [wordAt, hdrop]
  dsimp only
  rw [isBoundary, isBoundary, hhead, hlast]
  rfl

omit hword in
theorem replaceWordAfter_length (cs : List Char) (before : Option Char) :
    replaceWordAfter word body cs.length before cs = [] := by
  induction cs generalizing before with
  | nil => rfl
  | cons c cs ih => rw [List.length_cons, replaceWordAfter, ih]

theorem replaceWord_self : replaceWord word body word = body := by
  have hat := wordAt_self hword
  obtain ⟨hne, -⟩ := hword
  rw [replaceWord]
  generalize htext : word = text at hat ⊢
  cases text with
  | nil => exact absurd htext hne
  | cons c text =>
    rw [replaceWordAfter, hat, if_pos rfl, List.length_cons, Nat.add_sub_cancel,
      replaceWordAfter_length, List.append_nil]

end CqlGlue.Listing
