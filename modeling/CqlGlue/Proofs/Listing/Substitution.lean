import CqlGlue.Listing.Inline
import CqlGlue.Proofs.Listing.WholeWord
import CqlGlue.Proofs.Listing.Written

/-!
# Substituting words in a row

Where a word occurs in a row only as a complete token, putting a text for the word in the line is
putting the alternatives of that text for the word: where the word is an alternative of its own any
alternatives may come in, among other tokens the tokens of a single alternative. Words are
substituted one after the other; where the alternatives that come in mention no words, this is
substituting all of them at once.

## Main definitions
* `Piece.put` and `Row.put` put alternatives for a word, `Row.subst` puts tokens for tokens.
* `Fits` says that the alternatives of words, and of the words in these, can be put in an
  alternative.
* `HasBodies` says which alternatives come in for each of the words.

## Main statements
* `replaceWord_text` is the substitution of one word.
* `HasBodies.value_substitute_text` is the substitution of words in order.
* `putAll_eq_subst` says when this is the substitution of all words at once.
-/

namespace CqlGlue.Listing

open Text Inliner

/-! ## Tokens and alternatives -/

/-- Puts tokens for every token of an alternative. -/
def Piece.subst (σ : List Char → List (List Char)) : Piece → Piece
  | comment text => comment text
  | tokens ts => tokens (ts.flatMap σ)

/-- Puts tokens for every token of a row. -/
def Row.subst (σ : List Char → List (List Char)) (r : Row) : Row :=
  { r with pieces := r.pieces.map (Piece.subst σ) }

/-- Puts tokens for one word and leaves the other tokens. -/
def single (word : List Char) (body : List (List Char)) (t : List Char) : List (List Char) :=
  if t = word then body else [t]

/-- Puts tokens for several words and leaves the other tokens. -/
def expand (words : List (List Char)) (body : List Char → List (List Char)) (t : List Char) :
    List (List Char) :=
  if t ∈ words then body t else [t]

/-- Alternatives as they are written, with a bar between two of them. -/
def piecesText (ps : List Piece) : List Char := [' ', '|', ' '].intercalate (ps.map Piece.text)

/-- The tokens of a single alternative. -/
def soleTokens : List Piece → List (List Char)
  | [.tokens ts] => ts
  | _ => []

/-- Puts alternatives for a word in an alternative: in place of one that is the word alone, and
the tokens of a single alternative among other tokens. -/
def Piece.put (word : List Char) (body : List Piece) : Piece → List Piece
  | comment text => [comment text]
  | tokens ts =>
    if ts = [word] then body else [tokens (ts.flatMap (single word (soleTokens body)))]

/-- Puts alternatives for a word in a row. -/
def Row.put (word : List Char) (body : List Piece) (r : Row) : Row :=
  { r with pieces := r.pieces.flatMap (Piece.put word body) }

/-- Puts alternatives for several words, one after the other. -/
def Row.putAll (body : List Char → List Piece) (words : List (List Char)) (r : Row) : Row :=
  words.foldl (fun r w => r.put w (body w)) r

/-- The word occurs in the alternative only as a complete token. -/
def Piece.KeepsWhole (word : List Char) : Piece → Prop
  | comment text => hasWord word text = false
  | tokens ts => ∀ t ∈ ts, t ≠ word → hasWord word t = false

instance (word : List Char) : (p : Piece) → Decidable (p.KeepsWhole word)
  | .comment _ => inferInstanceAs (Decidable (_ = _))
  | .tokens _ => inferInstanceAs (Decidable (∀ t ∈ _, _))

/-- Where the word is not an alternative of its own, a single alternative comes in for it. -/
def Piece.Takes (word : List Char) (body : List Piece) (p : Piece) : Prop :=
  word ∈ p.mentioned → p = .tokens [word] ∨ body = [.tokens (soleTokens body)]

theorem Row.body_eq (r : Row) : r.body = piecesText r.pieces := rfl

theorem piecesText_singleton (p : Piece) : piecesText [p] = p.text :=
  List.intercalate_singleton

/-- Putting a single alternative for a word is putting its tokens. -/
theorem Piece.put_tokens (word : List Char) (ts : List (List Char)) (p : Piece) :
    p.put word [.tokens ts] = [p.subst (single word ts)] := by
  cases p with
  | comment text => rfl
  | tokens us =>
    rw [put]
    split
    · rename_i hus
      rw [hus, subst, List.flatMap_singleton, single, if_pos rfl]
    · rfl

theorem Row.put_tokens (word : List Char) (ts : List (List Char)) (r : Row) :
    r.put word [.tokens ts] = r.subst (single word ts) := by
  rw [put, subst, funext (Piece.put_tokens word ts), List.map_eq_flatMap]

theorem Row.name_putAll (body : List Char → List Piece) (words : List (List Char)) (r : Row) :
    (r.putAll body words).name = r.name := by
  induction words generalizing r with
  | nil => rfl
  | cons w words ih => exact ih _

theorem Piece.subst_subst (σ τ : List Char → List (List Char)) (p : Piece) :
    (p.subst σ).subst τ = p.subst fun t => (σ t).flatMap τ := by
  cases p with
  | comment text => rfl
  | tokens ts => exact congrArg tokens List.flatMap_assoc

theorem Row.subst_subst (σ τ : List Char → List (List Char)) (r : Row) :
    (r.subst σ).subst τ = r.subst fun t => (σ t).flatMap τ := by
  simp only [Row.subst, List.map_map]
  congr 1
  apply List.map_congr_left
  intro p _
  exact p.subst_subst σ τ

theorem body_eq_of_mem_soleTokens {t : List Char} {body : List Piece} (h : t ∈ soleTokens body) :
    body = [.tokens (soleTokens body)] := by
  unfold soleTokens at h ⊢
  split at h
  · rfl
  · exact absurd h List.not_mem_nil

theorem tokens_mem_of_body_eq {body : List Piece} (h : body = [.tokens (soleTokens body)]) :
    .tokens (soleTokens body) ∈ body := by
  generalize soleTokens body = ts at h
  subst h
  exact List.mem_singleton_self _

theorem mem_flatMap_single {word t : List Char} {ts us : List (List Char)} :
    t ∈ ts.flatMap (single word us) ↔ (t ∈ ts ∧ t ≠ word) ∨ (word ∈ ts ∧ t ∈ us) := by
  simp only [List.mem_flatMap, single]
  constructor
  · rintro ⟨u, hu, ht⟩
    split at ht
    · rename_i hword
      exact .inr ⟨hword ▸ hu, ht⟩
    · rename_i hword
      rw [List.mem_singleton.1 ht]
      exact .inl ⟨hu, hword⟩
  · rintro (⟨ht, hword⟩ | ⟨hword, ht⟩)
    · exact ⟨t, ht, by rw [if_neg hword]; exact List.mem_singleton_self t⟩
    · exact ⟨word, hword, by rwa [if_pos rfl]⟩

/-- The tokens after putting alternatives for a word are others than the word, or they come from
the alternatives. -/
theorem mem_mentioned_of_mem_put {word t : List Char} {body : List Piece} {p q : Piece}
    (hq : q ∈ p.put word body) (ht : t ∈ q.mentioned) :
    (t ∈ p.mentioned ∧ t ≠ word) ∨ (word ∈ p.mentioned ∧ ∃ b ∈ body, t ∈ b.mentioned) := by
  cases p with
  | comment text =>
    rw [List.mem_singleton.1 hq] at ht
    exact absurd ht List.not_mem_nil
  | tokens ts =>
    rw [Piece.put] at hq
    split at hq
    · rename_i hts
      exact .inr ⟨hts ▸ List.mem_singleton_self word, q, hq, ht⟩
    · rw [List.mem_singleton.1 hq] at ht
      rcases mem_flatMap_single.1 ht with hother | ⟨hword, hsole⟩
      · exact .inl hother
      · exact .inr ⟨hword, _, tokens_mem_of_body_eq (body_eq_of_mem_soleTokens hsole), hsole⟩

/-! ## Alternatives that can be put -/

section

variable {word : List Char} {body : List Piece}

theorem Piece.put_ne_nil (hbody : body ≠ []) (p : Piece) : p.put word body ≠ [] := by
  cases p with
  | comment text => exact List.cons_ne_nil _ _
  | tokens ts =>
    rw [put]
    split
    · exact hbody
    · exact List.cons_ne_nil _ _

/-- Among other tokens a single alternative comes in for the word. -/
theorem Piece.Takes.body_eq {ts : List (List Char)} (h : (Piece.tokens ts).Takes word body)
    (hts : ts ≠ [word]) (hword : word ∈ ts) : body = [.tokens (soleTokens body)] := by
  rcases h hword with heq | hbody
  · exact absurd (Piece.tokens.inj heq) hts
  · exact hbody

theorem Piece.IsWritten.put {p : Piece} (h : p.IsWritten) (hbody : ∀ b ∈ body, b.IsWritten)
    (htakes : p.Takes word body) : ∀ q ∈ p.put word body, q.IsWritten := by
  intro q hq
  cases p with
  | comment text => rwa [List.mem_singleton.1 hq]
  | tokens ts =>
    rw [Piece.put] at hq
    split at hq
    · exact hbody q hq
    · rename_i hts
      have hsole : word ∈ ts → (Piece.tokens (soleTokens body)).IsWritten := fun hword =>
        hbody _ (tokens_mem_of_body_eq (htakes.body_eq hts hword))
      rw [List.mem_singleton.1 hq]
      constructor
      · obtain ⟨t, ht⟩ := List.exists_mem_of_ne_nil ts h.1
        by_cases hword : t = word
        · subst hword
          obtain ⟨u, hu⟩ := List.exists_mem_of_ne_nil _ (hsole ht).1
          exact List.ne_nil_of_mem (mem_flatMap_single.2 (.inr ⟨ht, hu⟩))
        · exact List.ne_nil_of_mem (mem_flatMap_single.2 (.inl ⟨ht, hword⟩))
      · intro t ht
        rcases mem_flatMap_single.1 ht with ⟨ht, -⟩ | ⟨hword, ht⟩
        · exact h.2 t ht
        · exact (hsole hword).2 t ht

theorem Row.IsWritten.put {r : Row} (h : r.IsWritten) (hne : body ≠ [])
    (hbody : ∀ b ∈ body, b.IsWritten) (htakes : ∀ p ∈ r.pieces, p.Takes word body) :
    (r.put word body).IsWritten where
  name := h.name
  frontLine := h.frontLine
  frontSeparator := h.frontSeparator
  gap := h.gap
  gapLine := h.gapLine
  tail := h.tail
  tailLine := h.tailLine
  ne_nil hnil := by
    obtain ⟨p, hp⟩ := List.exists_mem_of_ne_nil _ h.ne_nil
    exact Piece.put_ne_nil hne p (List.flatMap_eq_nil_iff.1 hnil p hp)
  pieces q hq := by
    obtain ⟨p, hp, hq⟩ := List.mem_flatMap.1 hq
    exact (h.pieces p hp).put hbody (htakes p hp) q hq

/-- What comes in keeps other words whole. -/
theorem Piece.KeepsWhole.put {w : List Char} {p : Piece} (h : p.KeepsWhole w)
    (hbody : ∀ b ∈ body, b.KeepsWhole w) : ∀ q ∈ p.put word body, q.KeepsWhole w := by
  intro q hq
  cases p with
  | comment text => rwa [List.mem_singleton.1 hq]
  | tokens ts =>
    rw [Piece.put] at hq
    split at hq
    · exact hbody q hq
    · rw [List.mem_singleton.1 hq]
      intro t ht
      rcases mem_flatMap_single.1 ht with ⟨ht, -⟩ | ⟨-, ht⟩
      · exact h t ht
      · have hkeeps : (Piece.tokens (soleTokens body)).KeepsWhole w :=
          hbody _ (tokens_mem_of_body_eq (body_eq_of_mem_soleTokens ht))
        exact hkeeps t ht

end

/-! ## Words within words -/

/-- The word has a single alternative, and so have the words in it. -/
inductive IsSequence (words : List (List Char)) (body : List Char → List Piece) : List Char → Prop
  | intro {w : List Char} {ts : List (List Char)} (hbody : body w = [.tokens ts])
      (hts : ∀ t ∈ ts, t ∈ words → IsSequence words body t) : IsSequence words body w

/-- The words in the alternative can be substituted: it is a word alone, in whose alternatives the
words can be substituted, or its words have single alternatives. -/
inductive Fits (words : List (List Char)) (body : List Char → List Piece) : Piece → Prop
  | comment (text : List Char) : Fits words body (.comment text)
  | alone {w : List Char} (hbody : ∀ p ∈ body w, Fits words body p) : Fits words body (.tokens [w])
  | sequence {ts : List (List Char)} (hts : ∀ t ∈ ts, t ∈ words → IsSequence words body t) :
      Fits words body (.tokens ts)

section

variable {words : List (List Char)} {body : List Char → List Piece} {w : List Char}

theorem IsSequence.body_eq (h : IsSequence words body w) :
    body w = [.tokens (soleTokens (body w))] := by
  cases h with
  | intro hbody _ =>
    rw [hbody]
    rfl

theorem IsSequence.of_mem (h : IsSequence words body w) {t : List Char}
    (ht : t ∈ soleTokens (body w)) (hword : t ∈ words) : IsSequence words body t := by
  cases h with
  | intro hbody hts =>
    rw [hbody] at ht
    exact hts t ht hword

namespace Fits

variable {p : Piece} (h : Fits words body p) (hw : w ∈ words)
include h hw

theorem takes : p.Takes w (body w) := by
  intro hmem
  cases h with
  | comment text => exact absurd hmem List.not_mem_nil
  | alone _ =>
    rw [List.mem_singleton.1 hmem]
    exact .inl rfl
  | sequence hts => exact .inr (hts w hmem hw).body_eq

/-- After putting the alternatives of a word the other words can be substituted. -/
theorem put : ∀ q ∈ p.put w (body w), Fits words body q := by
  intro q hq
  cases h with
  | comment text =>
    rw [List.mem_singleton.1 hq]
    exact .comment text
  | @alone w' hbody =>
    rw [Piece.put] at hq
    split at hq
    · rename_i heq
      obtain rfl := List.singleton_inj.1 heq
      exact hbody q hq
    · rename_i hne
      have hother : w' ≠ w := fun heq => hne (by rw [heq])
      rw [List.mem_singleton.1 hq, List.flatMap_singleton, single, if_neg hother]
      exact .alone hbody
  | @sequence ts hts =>
    have hsole : w ∈ ts → ∀ t ∈ soleTokens (body w), t ∈ words → IsSequence words body t :=
      fun hmem t ht hword => (hts w hmem hw).of_mem ht hword
    rw [Piece.put] at hq
    split at hq
    · rename_i heq
      have hmem : w ∈ ts := heq ▸ List.mem_singleton_self w
      rw [(hts w hmem hw).body_eq] at hq
      rw [List.mem_singleton.1 hq]
      exact .sequence (hsole hmem)
    · rw [List.mem_singleton.1 hq]
      refine .sequence fun t ht hword => ?_
      rcases mem_flatMap_single.1 ht with ⟨ht, -⟩ | ⟨hmem, ht⟩
      · exact hts t ht hword
      · exact hsole hmem t ht hword

end Fits

end

/-! ## One word -/

theorem isWordChar_of_mem_bar {c : Char} (h : c ∈ [' ', '|', ' ']) : isWordChar c = false := by
  simp only [List.mem_cons, List.not_mem_nil, or_false] at h
  rcases h with rfl | rfl | rfl <;> decide

theorem isWordChar_of_mem_defines {c : Char} (h : c ∈ defines) : isWordChar c = false := by
  simp only [defines, List.mem_cons, List.not_mem_nil, or_false] at h
  rcases h with rfl | rfl | rfl <;> decide

section

variable {word : List Char} {body : List Piece} (hword : IsWord word)
include hword

/-- A token that is the word is replaced by a single alternative, any other one stays. -/
theorem replaceWord_token {t : List Char} (h : t ≠ word → hasWord word t = false)
    (hbody : t = word → body = [.tokens (soleTokens body)]) :
    replaceWord word (piecesText body) t =
      [' '].intercalate (single word (soleTokens body) t) := by
  by_cases ht : t = word
  · have htext : piecesText body = [' '].intercalate (soleTokens body) := by
      generalize soleTokens body = ts at hbody
      rw [hbody ht, piecesText_singleton, Piece.text]
    rw [ht, replaceWord_self hword, single, if_pos rfl, htext]
  · rw [single, if_neg ht, List.intercalate_singleton]
    exact replaceWordAfter_eq_self (h ht)

theorem Piece.replaceWord_text {p : Piece} (hkeeps : p.KeepsWhole word)
    (htakes : p.Takes word body) (hbody : ∀ b ∈ body, b.IsWritten) :
    replaceWord word (piecesText body) p.text = piecesText (p.put word body) := by
  cases p with
  | comment text =>
    rw [put, piecesText_singleton]
    exact replaceWordAfter_eq_self hkeeps
  | tokens ts =>
    rw [put]
    split
    · rename_i hts
      rw [Piece.text, hts, List.intercalate_singleton, replaceWord_self hword]
    · rename_i hts
      have htokens : ts.map (replaceWord word (piecesText body)) =
          ts.map fun t => [' '].intercalate (single word (soleTokens body) t) := by
        apply List.map_congr_left
        intro t ht
        exact replaceWord_token hword (hkeeps t ht) fun heq => htakes.body_eq hts (heq ▸ ht)
      have hne : ∀ t ∈ ts, single word (soleTokens body) t ≠ [] := by
        intro t ht
        rw [single]
        split
        · rename_i heq
          exact (hbody _ (tokens_mem_of_body_eq (htakes.body_eq hts (heq ▸ ht)))).1
        · exact List.cons_ne_nil _ _
      have hspace : ∀ c ∈ [' '], isWordChar c = false := fun c hc =>
        isWordChar_of_mem_bar (List.mem_cons.2 (.inl (List.mem_singleton.1 hc)))
      rw [Piece.text, replaceWord_intercalate hword hspace (List.cons_ne_nil _ _), htokens,
        piecesText_singleton, Piece.text, intercalate_flatMap hne]

theorem Row.replaceWord_body {r : Row} (hkeeps : ∀ p ∈ r.pieces, p.KeepsWhole word)
    (htakes : ∀ p ∈ r.pieces, p.Takes word body) (hne : body ≠ [])
    (hbody : ∀ b ∈ body, b.IsWritten) :
    replaceWord word (piecesText body) r.body = (r.put word body).body := by
  have hpieces : (r.pieces.map Piece.text).map (replaceWord word (piecesText body)) =
      r.pieces.map fun p => [' ', '|', ' '].intercalate ((p.put word body).map Piece.text) := by
    rw [List.map_map]
    exact List.map_congr_left fun p hp =>
      Piece.replaceWord_text hword (hkeeps p hp) (htakes p hp) hbody
  have hbar : ∀ c ∈ [' ', '|', ' '], isWordChar c = false := fun _ => isWordChar_of_mem_bar
  have hparts : ∀ p ∈ r.pieces, (p.put word body).map Piece.text ≠ [] :=
    fun p _ hnil => Piece.put_ne_nil hne p (List.map_eq_nil_iff.1 hnil)
  rw [Row.body, replaceWord_intercalate hword hbar (List.cons_ne_nil _ _), hpieces,
    ← intercalate_flatMap hparts, ← List.map_flatMap]
  rfl

omit hword in
theorem isWordChar_of_mem_separator {gap : List Char} (h : AllBlank gap) :
    ∀ c ∈ defines ++ gap, isWordChar c = false := by
  intro c hc
  rcases List.mem_append.1 hc with hc | hc
  · exact isWordChar_of_mem_defines hc
  · exact isWordChar_of_isBlank (h c hc)

omit hword in
theorem Row.text_of_tail_eq_nil {r : Row} (htail : r.tail = []) :
    r.text = r.front ++ (defines ++ r.gap) ++ r.body := by
  rw [Row.text, htail, List.append_nil]
  simp only [List.append_assoc]

/-- A word occurs in a line where it occurs in front of the separator or behind it. -/
theorem hasWord_text {r : Row} (hgap : AllBlank r.gap) (htail : r.tail = []) :
    hasWord word r.text = (hasWord word r.front || hasWord word r.body) := by
  have hne : defines ++ r.gap ≠ [] := List.cons_ne_nil _ _
  rw [Row.text_of_tail_eq_nil htail,
    hasWord_append_append hword (isWordChar_of_mem_separator hgap) hne]

/-- Putting a text for the word in the line is putting its alternatives for the word. -/
theorem replaceWord_text {r : Row} (hgap : AllBlank r.gap) (htail : r.tail = [])
    (hfront : hasWord word r.front = false) (hkeeps : ∀ p ∈ r.pieces, p.KeepsWhole word)
    (htakes : ∀ p ∈ r.pieces, p.Takes word body) (hne : body ≠ [])
    (hbody : ∀ b ∈ body, b.IsWritten) :
    replaceWord word (piecesText body) r.text = (r.put word body).text := by
  have hsame : replaceWord word (piecesText body) r.front = r.front :=
    replaceWordAfter_eq_self hfront
  have hseparator : defines ++ r.gap ≠ [] := List.cons_ne_nil _ _
  have hput : (r.put word body).tail = [] := htail
  rw [Row.text_of_tail_eq_nil htail, Row.text_of_tail_eq_nil hput,
    replaceWord_append_append hword (isWordChar_of_mem_separator hgap) hseparator, hsame,
    Row.replaceWord_body hword hkeeps htakes hne hbody]
  rfl

end

/-! ## Words in order -/

variable {lines : List (List Char)} {rule : String}

theorem value_substitute_cons {word body : List Char} (hbody : bodyOf? lines word = some body)
    (words : List (List Char)) (line : List Char) :
    (substitute lines rule (word :: words) line).value =
      (substitute lines rule words (replaceWord word body line)).value := by
  rw [substitute]
  split
  · rw [hbody]
  · rename_i h
    have hsame : replaceWord word body line = line :=
      replaceWordAfter_eq_self (Bool.eq_false_iff.2 h)
    rw [hsame]

/-- A line without any of the words stays as it is. -/
theorem value_substitute_of_forall {words : List (List Char)} {line : List Char}
    (h : ∀ w ∈ words, hasWord w line = false) :
    (substitute lines rule words line).value = .ok line := by
  induction words with
  | nil => rfl
  | cons w words ih =>
    rw [substitute, h w List.mem_cons_self, if_neg Bool.false_ne_true]
    exact ih fun w' hw' => h w' (List.mem_cons_of_mem _ hw')

/-- Every word has alternatives among the lines, in which words occur as complete tokens only. -/
structure HasBodies (lines : List (List Char)) (words : List (List Char))
    (body : List Char → List Piece) : Prop where
  word : ∀ w ∈ words, IsWord w
  defined : ∀ w ∈ words, bodyOf? lines w = some (piecesText (body w))
  ne_nil : ∀ w ∈ words, body w ≠ []
  written : ∀ w ∈ words, ∀ p ∈ body w, p.IsWritten
  whole : ∀ w ∈ words, ∀ p ∈ body w, ∀ w' ∈ words, p.KeepsWhole w'

/-- A row in which the words can be substituted: they stand only behind the separator, as complete
tokens, and their alternatives can be put there. -/
structure Row.IsReady (words : List (List Char)) (body : List Char → List Piece) (r : Row) :
    Prop where
  written : r.IsWritten
  tail : r.tail = []
  front : ∀ w ∈ words, hasWord w r.front = false
  whole : ∀ p ∈ r.pieces, ∀ w ∈ words, p.KeepsWhole w
  fits : ∀ p ∈ r.pieces, Fits words body p

namespace HasBodies

variable {words : List (List Char)} {body : List Char → List Piece} (h : HasBodies lines words body)
include h

/-- Putting the alternatives of a word leaves a row in which words can be substituted. -/
theorem isReady_put {r : Row} (hr : r.IsReady words body) {w : List Char} (hw : w ∈ words) :
    (r.put w (body w)).IsReady words body where
  written := hr.written.put (h.ne_nil w hw) (h.written w hw) fun p hp => (hr.fits p hp).takes hw
  tail := hr.tail
  front := hr.front
  whole q hq w' hw' := by
    obtain ⟨p, hp, hq⟩ := List.mem_flatMap.1 hq
    exact (hr.whole p hp w' hw').put (fun b hb => h.whole w hw b hb w' hw') q hq
  fits q hq := by
    obtain ⟨p, hp, hq⟩ := List.mem_flatMap.1 hq
    exact (hr.fits p hp).put hw q hq

theorem isReady_putAll {r : Row} (hr : r.IsReady words body) {ws : List (List Char)}
    (hws : ∀ w ∈ ws, w ∈ words) : (r.putAll body ws).IsReady words body := by
  induction ws generalizing r with
  | nil => exact hr
  | cons w ws ih =>
    exact ih (h.isReady_put hr (hws w List.mem_cons_self))
      fun w' hw' => hws w' (List.mem_cons_of_mem _ hw')

/-- Substituting words in a line is putting their alternatives in the row. -/
theorem value_substitute_text {r : Row} (hr : r.IsReady words body) {ws : List (List Char)}
    (hws : ∀ w ∈ ws, w ∈ words) :
    (substitute lines rule ws r.text).value = .ok (r.putAll body ws).text := by
  induction ws generalizing r with
  | nil => rfl
  | cons w ws ih =>
    have hw := hws w List.mem_cons_self
    rw [value_substitute_cons (h.defined w hw),
      replaceWord_text (h.word w hw) hr.written.gap hr.tail (hr.front w hw)
        (fun p hp => hr.whole p hp w hw) (fun p hp => (hr.fits p hp).takes hw) (h.ne_nil w hw)
        (h.written w hw)]
    exact ih (h.isReady_put hr hw) fun w' hw' => hws w' (List.mem_cons_of_mem _ hw')

end HasBodies

/-! ## Words at once -/

section

variable {words : List (List Char)} {word : List Char} {σ : List Char → List (List Char)}

/-- Tokens that are not words stay as they are. -/
theorem flatMap_expand {ts : List (List Char)} (hts : ∀ t ∈ ts, t ∉ words) :
    ts.flatMap (expand words σ) = ts := by
  induction ts with
  | nil => rfl
  | cons t ts ih =>
    rw [List.flatMap_cons, ih fun u hu => hts u (List.mem_cons_of_mem _ hu), expand,
      if_neg (hts t List.mem_cons_self)]
    rfl

/-- Substituting the first word and then the others is substituting all of them, as long as the
tokens of the first one are not among the others. -/
theorem subst_single_subst (hfree : ∀ t ∈ σ word, t ∉ words) (r : Row) :
    (r.subst (single word (σ word))).subst (expand words σ) =
      r.subst (expand (word :: words) σ) := by
  have htoken : ∀ t, (single word (σ word) t).flatMap (expand words σ) =
      expand (word :: words) σ t := by
    intro t
    rw [single, expand]
    by_cases ht : t = word
    · rw [if_pos ht, if_pos (ht ▸ List.mem_cons_self), ht]
      exact flatMap_expand hfree
    · rw [if_neg ht, List.flatMap_singleton, expand]
      simp [ht]
  rw [Row.subst_subst, funext htoken]

/-- Putting single alternatives that mention none of the words is putting tokens for all words at
once. -/
theorem putAll_eq_subst {body : List Char → List Piece}
    (hbody : ∀ w ∈ words, body w = [.tokens (σ w)])
    (hfree : ∀ w ∈ words, ∀ t ∈ σ w, t ∉ words) (r : Row) :
    r.putAll body words = r.subst (expand words σ) := by
  induction words generalizing r with
  | nil =>
    have hpiece : ∀ p : Piece, p.subst (expand [] σ) = p := by
      intro p
      cases p with
      | comment text => rfl
      | tokens ts => exact congrArg Piece.tokens (flatMap_expand fun _ _ => List.not_mem_nil)
    simp only [Row.putAll, List.foldl_nil, Row.subst, funext hpiece, List.map_id_fun', id_eq]
  | cons word words ih =>
    have hfree' : ∀ w ∈ word :: words, ∀ t ∈ σ w, t ∉ words := fun w hw t ht hmem =>
      hfree w hw t ht (List.mem_cons_of_mem _ hmem)
    rw [Row.putAll, List.foldl_cons, hbody word List.mem_cons_self, Row.put_tokens, ← Row.putAll,
      ih (fun w hw => hbody w (List.mem_cons_of_mem _ hw))
        (fun w hw => hfree' w (List.mem_cons_of_mem _ hw)),
      subst_single_subst (hfree' word List.mem_cons_self)]

end

end CqlGlue.Listing
