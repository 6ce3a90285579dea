import CqlGlue.Proofs.Listing.Tokens
import CqlGlue.Proofs.Listing.WholeWord
import Mathlib.Data.List.Basic
import Mathlib.Data.List.TakeWhile

/-!
# Texts as runs of word characters

A text is cut into its maximal runs of word characters and the characters between them. A word
made of word characters occurs in a text exactly where a run is the word. A character that ends a
run stays where it is whatever is put for the run, so runs that come in never merge with their
neighbours.

## Main definitions
* `runs` cuts a text, `putRun` puts a text for one run.

## Main statements
* `hasWord_iff_mem_runs` searches run by run, `replaceWord_eq_flatMap` substitutes run by run.
* `runs_flatMap_runs` are the runs of a text in which other texts are put for the runs.
-/

namespace CqlGlue.Listing

open Text

/-- The maximal runs of word characters of a text and the other characters one by one, in order. -/
def runs : List Char → List (List Char)
  | [] => []
  | c :: cs =>
    if isWordChar c then (c :: cs.takeWhile isWordChar) :: runs (cs.dropWhile isWordChar)
    else [c] :: runs cs
termination_by cs => cs.length
decreasing_by
  · exact Nat.lt_succ_of_le (List.dropWhile_sublist _).length_le
  · exact Nat.lt_succ_self _

/-- Puts a text for one run and leaves the others. -/
def putRun (word body r : List Char) : List Char := if r = word then body else r

variable {word body r : List Char} {sep : Char}

/-- Texts are made of word characters with other characters between them. -/
theorem runs_induction {P : List Char → Prop}
    (plain : ∀ r, (∀ c ∈ r, isWordChar c = true) → P r)
    (cut : ∀ r sep rest, (∀ c ∈ r, isWordChar c = true) → isWordChar sep = false → P rest →
      P (r ++ sep :: rest)) (cs : List Char) : P cs := by
  have hword : ∀ c ∈ cs.takeWhile isWordChar, isWordChar c = true :=
    List.all_eq_true.1 List.all_takeWhile
  have hsplit : cs.takeWhile isWordChar ++ cs.dropWhile isWordChar = cs :=
    List.takeWhile_append_dropWhile
  cases hrest : cs.dropWhile isWordChar with
  | nil =>
    rw [hrest, List.append_nil] at hsplit
    exact hsplit ▸ plain _ hword
  | cons sep rest =>
    have hlength : rest.length < cs.length := by
      have hle := (List.dropWhile_sublist (l := cs) isWordChar).length_le
      rw [hrest, List.length_cons] at hle
      exact hle
    have hsep := List.head?_dropWhile_not isWordChar cs
    rw [hrest] at hsplit hsep
    exact hsplit ▸ cut _ sep rest hword (by simpa using hsep) (runs_induction plain cut rest)
termination_by cs.length

/-! ## Cutting -/

theorem runs_nil : runs [] = [] := by rw [runs]

theorem runs_sep (hsep : isWordChar sep = false) (cs : List Char) :
    runs (sep :: cs) = [sep] :: runs cs := by
  rw [runs, if_neg (by rw [hsep]; exact Bool.false_ne_true)]

/-- A run ends in front of a character that is not a word character. -/
theorem runs_append_cons (hsep : isWordChar sep = false) (a b : List Char) :
    runs (a ++ sep :: b) = runs a ++ [sep] :: runs b := by
  induction a using runs.induct with
  | case1 => rw [List.nil_append, runs_sep hsep, runs_nil, List.nil_append]
  | case2 c a hc ih =>
    have htake : (a ++ sep :: b).takeWhile isWordChar = a.takeWhile isWordChar := by
      rw [List.takeWhile_append, List.takeWhile_cons, hsep]
      split
      · rename_i hlength
        have hall := (List.takeWhile_prefix isWordChar).eq_of_length hlength
        simp [hall]
      · rfl
    have hdrop : (a ++ sep :: b).dropWhile isWordChar = a.dropWhile isWordChar ++ sep :: b := by
      rw [List.dropWhile_append, List.dropWhile_cons, hsep]
      split
      · rename_i hempty
        rw [List.isEmpty_iff.1 hempty]
        rfl
      · rfl
    rw [List.cons_append, runs, if_pos hc, htake, hdrop, ih, runs, if_pos hc, List.cons_append]
  | case3 c a hc ih =>
    have hc : isWordChar c = false := Bool.eq_false_iff.2 hc
    rw [List.cons_append, runs_sep hc, ih, runs_sep hc, List.cons_append]

theorem IsWord.ne_singleton (h : IsWord word) (hsep : isWordChar sep = false) : word ≠ [sep] := by
  rintro rfl
  exact sep_not_mem h hsep (List.mem_singleton_self sep)

/-- The characters between runs are no words. -/
theorem putRun_singleton (h : IsWord word) (hsep : isWordChar sep = false) :
    putRun word body [sep] = [sep] :=
  if_neg (h.ne_singleton hsep).symm

theorem IsWord.runs_eq (h : IsWord r) : runs r = [r] := by
  obtain ⟨hne, hword⟩ := h
  cases r with
  | nil => exact absurd rfl hne
  | cons c r =>
    have hr : ∀ d ∈ r, isWordChar d = true := fun d hd => hword d (List.mem_cons_of_mem _ hd)
    rw [runs, if_pos (hword c List.mem_cons_self), List.takeWhile_eq_self_iff.2 hr,
      List.dropWhile_eq_nil_iff.2 hr, runs_nil]

/-- A run is made of word characters or is one other character. -/
theorem mem_runs_cases {cs : List Char} (h : r ∈ runs cs) :
    IsWord r ∨ ∃ c, isWordChar c = false ∧ r = [c] := by
  induction cs using runs.induct with
  | case1 => rw [runs_nil] at h; cases h
  | case2 c cs hc ih =>
    rw [runs, if_pos hc] at h
    rcases List.mem_cons.1 h with rfl | h
    · refine .inl ⟨List.cons_ne_nil _ _, List.forall_mem_cons.2 ⟨hc, ?_⟩⟩
      exact List.all_eq_true.1 List.all_takeWhile
    · exact ih h
  | case3 c cs hc ih =>
    rw [runs, if_neg hc] at h
    rcases List.mem_cons.1 h with rfl | h
    · exact .inr ⟨c, Bool.eq_false_iff.2 hc, rfl⟩
    · exact ih h

theorem runs_singleton (hsep : isWordChar sep = false) : runs [sep] = [[sep]] := by
  rw [runs_sep hsep, runs_nil]

theorem runs_eq_of_mem_runs {cs : List Char} (h : r ∈ runs cs) : runs r = [r] := by
  rcases mem_runs_cases h with hword | ⟨c, hc, rfl⟩
  · exact hword.runs_eq
  · exact runs_singleton hc

theorem flatten_runs (cs : List Char) : (runs cs).flatten = cs := by
  induction cs using runs.induct with
  | case1 => rw [runs_nil, List.flatten_nil]
  | case2 c cs hc ih =>
    rw [runs, if_pos hc, List.flatten_cons, ih, List.cons_append,
      List.takeWhile_append_dropWhile]
  | case3 c cs hc ih =>
    rw [runs, if_neg hc, List.flatten_cons, ih, List.singleton_append]

/-- A text that is not empty ends in its last run. -/
theorem exists_last_run {cs : List Char} (h : cs ≠ []) :
    ∃ front r, runs cs = front ++ [r] ∧ r ≠ [] ∧ cs.getLast? = r.getLast? := by
  have hne : runs cs ≠ [] := by
    intro hnil
    rw [← flatten_runs cs, hnil] at h
    exact h rfl
  have hlast := List.dropLast_append_getLast hne
  have hr : (runs cs).getLast hne ≠ [] := by
    rcases mem_runs_cases (List.getLast_mem hne) with hword | ⟨c, -, hc⟩
    · exact hword.ne_nil
    · rw [hc]
      exact List.cons_ne_nil _ _
  refine ⟨_, _, hlast.symm, hr, ?_⟩
  conv_lhs => rw [← flatten_runs cs, ← hlast]
  rw [List.flatten_append, List.flatten_singleton, List.getLast?_append,
    List.getLast?_eq_some_getLast hr, Option.some_or]

/-- Putting nothing for any run leaves the text. -/
theorem flatMap_runs_eq_self {g : List Char → List Char} {cs : List Char}
    (h : ∀ r ∈ runs cs, g r = r) : (runs cs).flatMap g = cs := by
  rw [List.flatMap_congr h, List.flatMap_id', flatten_runs]

/-- The runs of texts that are put for runs, as long as the characters between runs are kept. -/
theorem runs_flatMap_runs {g : List Char → List Char}
    (hg : ∀ c, isWordChar c = false → g [c] = [c]) (cs : List Char) :
    runs ((runs cs).flatMap g) = (runs cs).flatMap fun r => runs (g r) := by
  induction cs using runs_induction with
  | plain r hr =>
    by_cases hne : r = []
    · rw [hne, runs_nil, List.flatMap_nil, List.flatMap_nil, runs_nil]
    · rw [IsWord.runs_eq ⟨hne, hr⟩, List.flatMap_singleton, List.flatMap_singleton]
  | cut r sep rest hr hsep ih =>
    have hfront : runs ((runs r).flatMap g) = (runs r).flatMap fun r => runs (g r) := by
      by_cases hne : r = []
      · rw [hne, runs_nil, List.flatMap_nil, List.flatMap_nil, runs_nil]
      · rw [IsWord.runs_eq ⟨hne, hr⟩, List.flatMap_singleton, List.flatMap_singleton]
    rw [runs_append_cons hsep, List.flatMap_append, List.flatMap_append, List.flatMap_cons,
      List.flatMap_cons, hg sep hsep, List.singleton_append, runs_append_cons hsep, hfront, ih,
      runs_singleton hsep, List.singleton_append]

/-! ## Searching and substituting -/

/-- Within a run there is no boundary, so no other word. -/
theorem hasWordAfter_of_wordChars {before : Char}
    (hbefore : isWordChar before = true) {cs : List Char}
    (hcs : ∀ c ∈ cs, isWordChar c = true) : hasWordAfter word (some before) cs = false := by
  induction cs generalizing before with
  | nil => rfl
  | cons c cs ih =>
    have hc := hcs c List.mem_cons_self
    have hat : wordAt word (some before) (c :: cs) = false := by
      have hboundary : isBoundary (some before) (c :: cs).head? = false := by
        rw [isBoundary, List.head?_cons, Option.any_some, Option.any_some, hbefore, hc]
        rfl
      rw [wordAt]
      split
      · rw [hboundary, Bool.false_and]
      · rfl
    rw [hasWordAfter, hat, Bool.false_or]
    exact ih hc fun d hd => hcs d (List.mem_cons_of_mem _ hd)

theorem hasWord_of_wordChars (hword : IsWord word) (hr : ∀ c ∈ r, isWordChar c = true) :
    hasWord word r = true ↔ r = word := by
  constructor
  · intro h
    cases r with
    | nil => cases h
    | cons c r =>
      rw [hasWord, hasWordAfter, hasWordAfter_of_wordChars (hr c List.mem_cons_self)
        fun d hd => hr d (List.mem_cons_of_mem _ hd), Bool.or_false, wordAt] at h
      split at h
      · rename_i rest hdrop
        have happend := dropText?_eq_some_iff.1 hdrop
        cases rest with
        | nil => rw [happend, List.append_nil]
        | cons d rest =>
          have hd : isWordChar d = true := hr d (by rw [happend]; simp)
          have hlast : word.getLast?.any isWordChar = true := by
            rw [List.getLast?_eq_some_getLast hword.ne_nil, Option.any_some]
            exact hword.wordChars _ (List.getLast_mem hword.ne_nil)
          rw [isBoundary, isBoundary, List.head?_cons, List.head?_cons, hlast, Option.any_some,
            Option.any_some, hd] at h
          simp at h
      · cases h
  · rintro rfl
    have hat := wordAt_self hword
    obtain ⟨hne, -⟩ := hword
    cases r with
    | nil => exact absurd rfl hne
    | cons c r => rw [hasWord, hasWordAfter, hat, Bool.true_or]

/-- A word occurs in a text where a run is the word. -/
theorem hasWord_iff_mem_runs (hword : IsWord word) {cs : List Char} :
    hasWord word cs = true ↔ word ∈ runs cs := by
  have hplain : ∀ r, (∀ c ∈ r, isWordChar c = true) →
      (hasWord word r = true ↔ word ∈ runs r) := by
    intro r hr
    rw [hasWord_of_wordChars hword hr]
    by_cases hne : r = []
    · rw [hne, runs_nil]
      exact ⟨fun h => absurd h.symm hword.ne_nil, fun h => absurd h List.not_mem_nil⟩
    · rw [IsWord.runs_eq ⟨hne, hr⟩, List.mem_singleton, eq_comm]
  induction cs using runs_induction with
  | plain r hr => exact hplain r hr
  | cut r sep rest hr hsep ih =>
    rw [hasWord_append_cons hword hsep, runs_append_cons hsep, Bool.or_eq_true, List.mem_append,
      List.mem_cons, or_iff_right (hword.ne_singleton hsep)]
    exact or_congr (hplain r hr) ih

theorem hasWord_eq_false_iff (hword : IsWord word) {cs : List Char} :
    hasWord word cs = false ↔ word ∉ runs cs := by
  rw [← hasWord_iff_mem_runs hword, Bool.not_eq_true]

theorem IsWord.mem_runs_append_append (hword : IsWord word) {a seps b : List Char}
    (hseps : ∀ c ∈ seps, isWordChar c = false) (hne : seps ≠ []) :
    word ∈ runs (a ++ seps ++ b) ↔ word ∈ runs a ∨ word ∈ runs b := by
  rw [← hasWord_iff_mem_runs hword, ← hasWord_iff_mem_runs hword, ← hasWord_iff_mem_runs hword,
    hasWord_append_append hword hseps hne, Bool.or_eq_true]

/-- Trimming takes no word away. -/
theorem IsWord.mem_runs_trim (hword : IsWord word) (cs : List Char) :
    word ∈ runs (trim cs) ↔ word ∈ runs cs := by
  have hnil : word ∉ runs [] := by
    rw [runs_nil]
    exact List.not_mem_nil
  have hblank : ∀ blanks, AllBlank blanks → ∀ c ∈ blanks, isWordChar c = false :=
    fun _ h c hc => isWordChar_of_isBlank (h c hc)
  obtain ⟨front, back, hfront, hback, heq⟩ := exists_blank_trim_blank cs
  have hleft : ∀ b, word ∈ runs (front ++ b) ↔ word ∈ runs b := by
    intro b
    by_cases hne : front = []
    · rw [hne, List.nil_append]
    · rw [← List.nil_append front, hword.mem_runs_append_append (hblank _ hfront) hne,
        or_iff_right hnil]
  have hright : ∀ a, word ∈ runs (a ++ back) ↔ word ∈ runs a := by
    intro a
    by_cases hne : back = []
    · rw [hne, List.append_nil]
    · rw [← List.append_nil (a ++ back), hword.mem_runs_append_append (hblank _ hback) hne,
        or_iff_left hnil]
  conv_rhs => rw [heq]
  rw [hright, hleft]

/-- Substituting a word is putting the text for the runs that are the word. -/
theorem replaceWord_eq_flatMap (hword : IsWord word) (body cs : List Char) :
    replaceWord word body cs = (runs cs).flatMap (putRun word body) := by
  have hplain : ∀ r, (∀ c ∈ r, isWordChar c = true) →
      replaceWord word body r = (runs r).flatMap (putRun word body) := by
    intro r hr
    by_cases hr' : r = word
    · rw [hr', replaceWord_self hword, hword.runs_eq, List.flatMap_singleton, putRun, if_pos rfl]
    · have hnone : hasWord word r = false :=
        Bool.eq_false_iff.2 fun h => hr' ((hasWord_of_wordChars hword hr).1 h)
      have hsame : replaceWord word body r = r := replaceWordAfter_eq_self hnone
      rw [hsame, flatMap_runs_eq_self]
      intro r' hmem
      rw [putRun, if_neg]
      rintro rfl
      exact (hasWord_eq_false_iff hword).1 hnone hmem
  induction cs using runs_induction with
  | plain r hr => exact hplain r hr
  | cut r sep rest hr hsep ih =>
    rw [replaceWord_append_cons hword hsep, runs_append_cons hsep, List.flatMap_append,
      List.flatMap_cons, putRun_singleton hword hsep, hplain r hr, ih, List.singleton_append]

end CqlGlue.Listing
