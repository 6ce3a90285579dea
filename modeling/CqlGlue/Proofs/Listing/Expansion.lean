import CqlGlue.Proofs.Listing.Substitution
import CqlGlue.Proofs.Listing.WordRuns

/-!
# Recursive expansion

Inlining substitutes words in order, each in the whole line that the words before it have made.
This is the same as expanding the line from within: a run that is a word is replaced by the
expansion of the word's text, in which only later words count. A word without a text that this
comes upon ends the work, and of several the first in order is the one that is reported.

## Main definitions
* `expandFrom` is the expansion, `Reaches` says which words it comes upon, `Misses` which of them
  have no text.

## Main statements
* `expandFrom_succ` and `misses_succ_iff` say what substituting one word leaves to be done.
* `value_substitute_of_forall_not_misses` and `value_substitute_of_misses` are about words in order.
* `not_mem_runs_expandFrom` says when no word is left over.
* `expandFrom_of_forall_not_mem` is the expansion where no text mentions a word.
-/

namespace CqlGlue.Listing

open Text Inliner

section

variable (words : List (List Char)) (body? : List Char → Option (List Char))

/-- The expansion of a text by the words from the `k`-th on. A run that is the `j`-th word is
replaced by the expansion of the text for this word by the words behind it; a word without a text
stays. -/
def expandFrom (k : Nat) (s : List Char) : List Char :=
  (runs s).flatMap fun r =>
    if _ : k ≤ words.idxOf r ∧ words.idxOf r < words.length then
      match body? r with
      | some body => expandFrom (words.idxOf r + 1) body
      | none => r
    else r
termination_by words.length - k

/-- What becomes of one run. -/
def expandRun (k : Nat) (r : List Char) : List Char :=
  if k ≤ words.idxOf r ∧ words.idxOf r < words.length then
    match body? r with
    | some body => expandFrom words body? (words.idxOf r + 1) body
    | none => r
  else r

/-- The expansion by the words from the `k`-th on comes upon the `j`-th word. -/
inductive Reaches : Nat → List Char → Nat → Prop where
  | here {k j : Nat} {s w : List Char} (hj : k ≤ j) (hw : words[j]? = some w) (hs : w ∈ runs s) :
      Reaches k s j
  | within {k i j : Nat} {s w body : List Char} (hi : k ≤ i) (hw : words[i]? = some w)
      (hs : w ∈ runs s) (hbody : body? w = some body) (h : Reaches (i + 1) body j) : Reaches k s j

/-- The expansion comes upon the `j`-th word, which has no text. -/
def Misses (k : Nat) (s : List Char) (j : Nat) : Prop :=
  Reaches words body? k s j ∧ ∃ w, words[j]? = some w ∧ body? w = none

/-- The text for a word mentions only words behind it. -/
def MentionsLater : Prop :=
  ∀ (i : Nat) w body, words[i]? = some w → body? w = some body →
    ∀ (j : Nat) v, words[j]? = some v → v ∈ runs body → i < j

end

variable {words : List (List Char)} {body? : List Char → Option (List Char)}
variable {i j k : Nat} {r s w v body : List Char}

/-! ## One run -/

theorem expandFrom_eq (k : Nat) (s : List Char) :
    expandFrom words body? k s = (runs s).flatMap (expandRun words body? k) := by
  rw [expandFrom]
  rfl

theorem expandRun_of_not_mem (h : r ∉ words) : expandRun words body? k r = r := by
  rw [expandRun, if_neg]
  rintro ⟨-, hr⟩
  exact h (List.idxOf_lt_length_iff.1 hr)

/-- The characters between runs are no words. -/
theorem expandRun_singleton (hwords : ∀ w ∈ words, IsWord w) {c : Char}
    (hc : isWordChar c = false) : expandRun words body? k [c] = [c] :=
  expandRun_of_not_mem fun hmem => (hwords _ hmem).ne_singleton hc rfl

theorem runs_expandFrom (hwords : ∀ w ∈ words, IsWord w) (k : Nat) (s : List Char) :
    runs (expandFrom words body? k s) =
      (runs s).flatMap fun r => runs (expandRun words body? k r) := by
  rw [expandFrom_eq, runs_flatMap_runs fun _ hc => expandRun_singleton hwords hc]

theorem idxOf_eq (hdistinct : words.Nodup) (hw : words[j]? = some w) : words.idxOf w = j := by
  obtain ⟨hj, rfl⟩ := List.getElem?_eq_some_iff.1 hw
  exact hdistinct.idxOf_getElem j hj

/-- A word that counts is replaced by the expansion of its text. -/
theorem expandRun_of_some (hdistinct : words.Nodup) (hw : words[j]? = some w) (hj : k ≤ j)
    (hbody : body? w = some body) :
    expandRun words body? k w = expandFrom words body? (j + 1) body := by
  obtain ⟨hlt, -⟩ := List.getElem?_eq_some_iff.1 hw
  rw [expandRun, idxOf_eq hdistinct hw, if_pos ⟨hj, hlt⟩, hbody]

theorem expandRun_of_none (hbody : body? r = none) : expandRun words body? k r = r := by
  rw [expandRun, hbody, ite_self]

/-- Whether the word at the bound counts makes no difference to other runs. -/
theorem expandRun_succ_of_ne (hw : words[k]? = some w) (hr : r ≠ w) :
    expandRun words body? k r = expandRun words body? (k + 1) r := by
  have hcond : (k ≤ words.idxOf r ∧ words.idxOf r < words.length) ↔
      (k + 1 ≤ words.idxOf r ∧ words.idxOf r < words.length) := by
    refine and_congr_left fun hlt => ⟨fun hle => ?_, Nat.le_of_succ_le⟩
    refine Nat.lt_of_le_of_ne hle fun heq => hr ?_
    have hself := List.getElem?_eq_getElem hlt
    rw [List.getElem_idxOf, ← heq, hw] at hself
    exact (Option.some.inj hself).symm
  rw [expandRun, expandRun]
  simp only [hcond]

theorem expandRun_of_length_le (h : words.length ≤ k) : expandRun words body? k r = r := by
  rw [expandRun, if_neg]
  omega

/-! ## One word -/

/-- Runs that are not the word stay, and those of the text come in for it. -/
theorem mem_runs_replaceWord (hw : IsWord w) :
    v ∈ runs (replaceWord w body s) ↔ v ∈ runs s ∧ v ≠ w ∨ w ∈ runs s ∧ v ∈ runs body := by
  rw [replaceWord_eq_flatMap hw, runs_flatMap_runs fun _ => putRun_singleton hw,
    List.mem_flatMap]
  constructor
  · rintro ⟨r, hr, hv⟩
    rw [putRun] at hv
    split at hv
    · rename_i heq
      exact .inr ⟨heq ▸ hr, hv⟩
    · rename_i hne
      rw [runs_eq_of_mem_runs hr, List.mem_singleton] at hv
      exact .inl ⟨hv ▸ hr, hv ▸ hne⟩
  · rintro (⟨hv, hne⟩ | ⟨hmem, hv⟩)
    · refine ⟨v, hv, ?_⟩
      rw [putRun, if_neg hne, runs_eq_of_mem_runs hv]
      exact List.mem_singleton_self v
    · exact ⟨w, hmem, by rwa [putRun, if_pos rfl]⟩

/-- Substituting the first word that counts leaves the expansion by the others. -/
theorem expandFrom_succ (hwords : ∀ w ∈ words, IsWord w) (hdistinct : words.Nodup)
    (hk : words[k]? = some w) (hbody : body? w = some body) (s : List Char) :
    expandFrom words body? k s = expandFrom words body? (k + 1) (replaceWord w body s) := by
  have hw : IsWord w := hwords w (List.mem_of_getElem? hk)
  rw [replaceWord_eq_flatMap hw, expandFrom_eq, expandFrom_eq,
    runs_flatMap_runs fun _ => putRun_singleton hw, List.flatMap_assoc]
  apply List.flatMap_congr
  intro r hr
  rw [← expandFrom_eq, putRun]
  split
  · rename_i heq
    rw [heq, expandRun_of_some hdistinct hk (Nat.le_refl k) hbody]
  · rename_i hne
    rw [expandFrom_eq, runs_eq_of_mem_runs hr, List.flatMap_singleton,
      expandRun_succ_of_ne hk hne]

/-- Where the word does not occur nothing has to be done for it. -/
theorem expandFrom_succ_of_not_mem (hk : words[k]? = some w) (hs : w ∉ runs s) :
    expandFrom words body? k s = expandFrom words body? (k + 1) s := by
  rw [expandFrom_eq, expandFrom_eq]
  apply List.flatMap_congr
  intro r hr
  exact expandRun_succ_of_ne hk fun heq => hs (heq ▸ hr)

theorem expandFrom_of_length_le (h : words.length ≤ k) (s : List Char) :
    expandFrom words body? k s = s := by
  rw [expandFrom_eq]
  exact flatMap_runs_eq_self fun _ _ => expandRun_of_length_le h

/-! ## Words that are reached -/

theorem Reaches.le (h : Reaches words body? k s j) : k ≤ j := by
  induction h with
  | here hj _ _ => exact hj
  | within hi _ _ _ _ ih => exact Nat.le_trans hi (Nat.le_of_succ_le ih)

theorem Reaches.lt_length (h : Reaches words body? k s j) : j < words.length := by
  induction h with
  | here _ hw _ => exact (List.getElem?_eq_some_iff.1 hw).1
  | within _ _ _ _ _ ih => exact ih

/-- Only the runs of a text and the bound count. -/
theorem Reaches.mono (h : Reaches words body? k s j) {k' : Nat} {s' : List Char}
    (hsub : ∀ i w, k ≤ i → words[i]? = some w → w ∈ runs s → k' ≤ i ∧ w ∈ runs s') :
    Reaches words body? k' s' j := by
  cases h with
  | here hj hw hs =>
    obtain ⟨hle, hmem⟩ := hsub _ _ hj hw hs
    exact .here hle hw hmem
  | within hi hw hs hbody h =>
    obtain ⟨hle, hmem⟩ := hsub _ _ hi hw hs
    exact .within hle hw hmem hbody h

/-- After the substitution of the first word that counts the expansion comes upon the same words but
this one. -/
theorem reaches_succ_iff (hwords : ∀ w ∈ words, IsWord w) (hdistinct : words.Nodup)
    (hk : words[k]? = some w) (hbody : body? w = some body) :
    Reaches words body? k s j ↔
      j = k ∧ w ∈ runs s ∨ Reaches words body? (k + 1) (replaceWord w body s) j := by
  have hw : IsWord w := hwords w (List.mem_of_getElem? hk)
  -- Of the words that occur in the text only the `k`-th is not looked for any more.
  have hother : ∀ i v, k ≤ i → words[i]? = some v → v ∈ runs s → i ≠ k →
      k + 1 ≤ i ∧ v ∈ runs (replaceWord w body s) := by
    intro i v hi hv hs hne
    refine ⟨Nat.lt_of_le_of_ne hi hne.symm, (mem_runs_replaceWord hw).2 (.inl ⟨hs, ?_⟩)⟩
    rintro rfl
    exact hne ((idxOf_eq hdistinct hv).symm.trans (idxOf_eq hdistinct hk))
  constructor
  · intro h
    cases h with
    | @here _ _ _ v hj hv hs =>
      by_cases hjk : j = k
      · obtain rfl : w = v := Option.some.inj (hk.symm.trans (hjk ▸ hv))
        exact .inl ⟨hjk, hs⟩
      · obtain ⟨hle, hmem⟩ := hother j v hj hv hs hjk
        exact .inr (.here hle hv hmem)
    | @within _ i _ _ v body' hi hv hs hbody' h =>
      by_cases hik : i = k
      · obtain rfl : w = v := Option.some.inj (hk.symm.trans (hik ▸ hv))
        obtain rfl : body = body' := Option.some.inj (hbody.symm.trans hbody')
        refine .inr (h.mono fun i' v' hi' _ hs' => ⟨hik ▸ hi', ?_⟩)
        exact (mem_runs_replaceWord hw).2 (.inr ⟨hs, hs'⟩)
      · obtain ⟨hle, hmem⟩ := hother i v hi hv hs hik
        exact .inr (.within hle hv hmem hbody' h)
  · rintro (⟨rfl, hs⟩ | h)
    · exact .here (Nat.le_refl _) hk hs
    · cases h with
      | here hj hv hs =>
        rcases (mem_runs_replaceWord hw).1 hs with ⟨hs, -⟩ | ⟨hmem, hs⟩
        · exact .here (Nat.le_of_succ_le hj) hv hs
        · exact .within (Nat.le_refl k) hk hmem hbody (.here hj hv hs)
      | within hi hv hs hbody' h =>
        rcases (mem_runs_replaceWord hw).1 hs with ⟨hs, -⟩ | ⟨hmem, hs⟩
        · exact .within (Nat.le_of_succ_le hi) hv hs hbody' h
        · exact .within (Nat.le_refl k) hk hmem hbody (.within hi hv hs hbody' h)

theorem misses_succ_iff (hwords : ∀ w ∈ words, IsWord w) (hdistinct : words.Nodup)
    (hk : words[k]? = some w) (hbody : body? w = some body) :
    Misses words body? k s j ↔ Misses words body? (k + 1) (replaceWord w body s) j := by
  rw [Misses, Misses, reaches_succ_iff hwords hdistinct hk hbody]
  refine and_congr_left ?_
  rintro ⟨v, hv, hnone⟩
  refine or_iff_right ?_
  rintro ⟨rfl, -⟩
  obtain rfl : w = v := Option.some.inj (hk.symm.trans hv)
  rw [hbody] at hnone
  cases hnone

/-- Where the word does not occur the expansion comes upon words behind it only. -/
theorem misses_succ_iff_of_not_mem (hk : words[k]? = some w) (hs : w ∉ runs s) :
    Misses words body? k s j ↔ Misses words body? (k + 1) s j := by
  refine and_congr_left fun _ => ⟨fun h => h.mono ?_, fun h => h.mono ?_⟩
  · intro i v hi hv hmem
    refine ⟨Nat.lt_of_le_of_ne hi ?_, hmem⟩
    rintro rfl
    obtain rfl : w = v := Option.some.inj (hk.symm.trans hv)
    exact hs hmem
  · intro i v hi _ hmem
    exact ⟨Nat.le_of_succ_le hi, hmem⟩

/-! ## Words in order -/

section

variable {lines : List (List Char)} {rule : String} {before later : List (List Char)}

theorem getElem?_length (hsplit : words = before ++ w :: later) :
    words[before.length]? = some w := by
  rw [hsplit, List.getElem?_append_right (Nat.le_refl _), Nat.sub_self, List.getElem?_cons_zero]

theorem split_succ (hsplit : words = before ++ w :: later) :
    words = (before ++ [w]) ++ later := by rw [hsplit, List.append_assoc, List.singleton_append]

/-- Where the expansion comes upon no word without a text, substituting the words in order gives the
expansion. -/
theorem value_substitute_of_forall_not_misses (hwords : ∀ w ∈ words, IsWord w)
    (hdistinct : words.Nodup) (hsplit : words = before ++ later)
    (h : ∀ j, ¬ Misses words (bodyOf? lines) before.length s j) :
    (substitute lines rule later s).value =
      .ok (expandFrom words (bodyOf? lines) before.length s) := by
  induction later generalizing before s with
  | nil =>
    have hlength : words.length ≤ before.length := by
      rw [hsplit, List.append_nil]
    rw [expandFrom_of_length_le hlength]
    rfl
  | cons w later ih =>
    have hk := getElem?_length hsplit
    have hput := fun s => ih (s := s) (split_succ hsplit)
    simp only [List.length_append, List.length_singleton] at hput
    cases hbody : bodyOf? lines w with
    | some body =>
      rw [value_substitute_cons hbody, expandFrom_succ hwords hdistinct hk hbody]
      exact hput _ fun j hj => h j ((misses_succ_iff hwords hdistinct hk hbody).2 hj)
    | none =>
      have hs : w ∉ runs s := fun hs =>
        h _ ⟨.here (Nat.le_refl _) hk hs, w, hk, hbody⟩
      have hw : IsWord w := hwords w (List.mem_of_getElem? hk)
      rw [substitute, (hasWord_eq_false_iff hw).2 hs, if_neg Bool.false_ne_true,
        expandFrom_succ_of_not_mem hk hs]
      exact hput _ fun j hj => h j ((misses_succ_iff_of_not_mem hk hs).2 hj)

/-- Otherwise the first word without a text that the expansion comes upon is reported. -/
theorem value_substitute_of_misses (hwords : ∀ w ∈ words, IsWord w) (hdistinct : words.Nodup)
    (hsplit : words = before ++ later) (h : Misses words (bodyOf? lines) before.length s j)
    (hleast : ∀ i < j, ¬ Misses words (bodyOf? lines) before.length s i)
    (hv : words[j]? = some v) :
    (substitute lines rule later s).value = .error (.undefinedProduction (String.ofList v)) := by
  induction later generalizing before s with
  | nil =>
    have hle := h.1.le
    have hlt := h.1.lt_length
    rw [hsplit, List.append_nil] at hlt
    omega
  | cons w later ih =>
    have hk := getElem?_length hsplit
    have hput := fun s => ih (s := s) (split_succ hsplit)
    simp only [List.length_append, List.length_singleton] at hput
    have hw : IsWord w := hwords w (List.mem_of_getElem? hk)
    cases hbody : bodyOf? lines w with
    | some body =>
      have hiff := fun j => misses_succ_iff (s := s) (j := j) hwords hdistinct hk hbody
      rw [value_substitute_cons hbody]
      exact hput _ ((hiff j).1 h) fun i hi hmiss => hleast i hi ((hiff i).2 hmiss)
    | none =>
      by_cases hs : w ∈ runs s
      · have hmiss : Misses words (bodyOf? lines) before.length s before.length :=
          ⟨.here (Nat.le_refl _) hk hs, w, hk, hbody⟩
        have hj : j = before.length :=
          Nat.le_antisymm (Nat.le_of_not_lt fun hlt => hleast _ hlt hmiss) h.1.le
        obtain rfl : w = v := Option.some.inj (hk.symm.trans (hj ▸ hv))
        rw [substitute, (hasWord_iff_mem_runs hw).2 hs, if_pos rfl, hbody]
      · have hiff : ∀ j, Misses words (bodyOf? lines) before.length s j ↔
            Misses words (bodyOf? lines) (before.length + 1) s j := fun j =>
          misses_succ_iff_of_not_mem hk hs
        rw [substitute, (hasWord_eq_false_iff hw).2 hs, if_neg Bool.false_ne_true]
        exact hput _ ((hiff j).1 h) fun i hi hmiss => hleast i hi ((hiff i).2 hmiss)

end

/-! ## Texts without words -/

/-- Where the texts mention later words only, no word is left over. -/
theorem not_mem_runs_expandFrom {k : Nat} {s : List Char} (hwords : ∀ w ∈ words, IsWord w)
    (hdistinct : words.Nodup) (hlater : MentionsLater words body?)
    (hs : ∀ (j : Nat) v, words[j]? = some v → v ∈ runs s → k ≤ j)
    (hdefined : ∀ j, ¬ Misses words body? k s j) (hv : v ∈ words) :
    v ∉ runs (expandFrom words body? k s) := by
  rw [runs_expandFrom hwords, List.mem_flatMap]
  rintro ⟨r, hr, hmem⟩
  by_cases hword : r ∈ words
  · obtain ⟨i, hi⟩ := List.mem_iff_getElem?.1 hword
    have hki := hs i r hi hr
    cases hbody : body? r with
    | none => exact hdefined i ⟨.here hki hi hr, r, hi, hbody⟩
    | some body =>
      have hlength := (List.getElem?_eq_some_iff.1 hi).1
      rw [expandRun_of_some hdistinct hi hki hbody] at hmem
      refine not_mem_runs_expandFrom hwords hdistinct hlater (fun j v hj hmem => ?_) ?_ hv hmem
      · exact hlater i r body hi hbody j v hj hmem
      · rintro j ⟨hreach, hnone⟩
        exact hdefined j ⟨.within hki hi hr hbody hreach, hnone⟩
  · rw [expandRun_of_not_mem hword, runs_eq_of_mem_runs hr, List.mem_singleton] at hmem
    exact hword (hmem ▸ hv)
termination_by words.length - k

theorem expandFrom_eq_self (h : ∀ w ∈ words, w ∉ runs s) : expandFrom words body? k s = s := by
  rw [expandFrom_eq]
  exact flatMap_runs_eq_self fun r hr => expandRun_of_not_mem fun hmem => h r hmem hr

/-- A character that is no word character stays, and both sides of it are expanded. -/
theorem expandFrom_append_cons (hwords : ∀ w ∈ words, IsWord w) {c : Char}
    (hc : isWordChar c = false) (a b : List Char) :
    expandFrom words body? k (a ++ c :: b) =
      expandFrom words body? k a ++ c :: expandFrom words body? k b := by
  rw [expandFrom_eq, runs_append_cons hc, List.flatMap_append, List.flatMap_cons,
    expandRun_singleton hwords hc, expandFrom_eq, expandFrom_eq, List.singleton_append]

theorem expandFrom_nil : expandFrom words body? k [] = [] := by
  rw [expandFrom_eq, runs_nil, List.flatMap_nil]

/-- Texts that mention no word mention later words only. -/
theorem mentionsLater_of_forall (hwords : ∀ w ∈ words, IsWord w)
    (h : ∀ w ∈ words, ∀ body ∈ body? w, ∀ v ∈ words, hasWord v body = false) :
    MentionsLater words body? := by
  intro i w body hw hbody j v hv hmem
  have hfree := h w (List.mem_of_getElem? hw) body hbody v (List.mem_of_getElem? hv)
  exact absurd hmem ((hasWord_eq_false_iff (hwords v (List.mem_of_getElem? hv))).1 hfree)

/-- Where no text mentions a word, the texts are put for all words at once. -/
theorem expandFrom_of_forall_not_mem (hdistinct : words.Nodup)
    (hfree : ∀ w ∈ words, ∀ body, body? w = some body → ∀ v ∈ words, v ∉ runs body)
    (s : List Char) :
    expandFrom words body? 0 s =
      (runs s).flatMap fun r => if r ∈ words then (body? r).getD r else r := by
  rw [expandFrom_eq]
  apply List.flatMap_congr
  intro r _
  split
  · rename_i hr
    obtain ⟨i, hi⟩ := List.mem_iff_getElem?.1 hr
    cases hbody : body? r with
    | none => exact expandRun_of_none hbody
    | some body =>
      rw [expandRun_of_some hdistinct hi (Nat.zero_le i) hbody,
        expandFrom_eq_self (hfree r hr body hbody)]
      rfl
  · rename_i hr
    exact expandRun_of_not_mem hr

/-- Then the expansion comes upon the words of the text only. -/
theorem exists_misses_iff_of_forall_not_mem
    (hfree : ∀ w ∈ words, ∀ body, body? w = some body → ∀ v ∈ words, v ∉ runs body) :
    (∃ j, Misses words body? 0 s j) ↔ ∃ w ∈ words, w ∈ runs s ∧ body? w = none := by
  constructor
  · rintro ⟨j, hreach, w, hj, hnone⟩
    cases hreach with
    | here _ hv hs =>
      obtain rfl := Option.some.inj (hj.symm.trans hv)
      exact ⟨w, List.mem_of_getElem? hj, hs, hnone⟩
    | within _ hv _ hbody h =>
      cases h with
      | here _ hv' hs =>
        exact absurd hs (hfree _ (List.mem_of_getElem? hv) _ hbody _ (List.mem_of_getElem? hv'))
      | within _ hv' hs _ _ =>
        exact absurd hs (hfree _ (List.mem_of_getElem? hv) _ hbody _ (List.mem_of_getElem? hv'))
  · rintro ⟨w, hw, hs, hnone⟩
    obtain ⟨j, hj⟩ := List.mem_iff_getElem?.1 hw
    exact ⟨j, .here (Nat.zero_le j) hj hs, w, hj, hnone⟩

end CqlGlue.Listing
