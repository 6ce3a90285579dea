import CqlGlue.Proofs.Listing.Alternatives
import CqlGlue.Proofs.Listing.Definitions

/-!
# Symbols of a listing

A symbol stands by itself in an alternative when there are blanks or nothing on both sides of it.
It is read as a token when it is one, at its place among the tokens. A symbol that is no token is
never read: characters in it are passed over, and what is left is in pieces.

## Main definitions
* `ReadsTo` says that reading tokens comes to a place in a text.
* `Place` is a place where a symbol stands by itself in the definition of a name that counts.

## Main statements
* `Place.exists_choice`: a symbol that is a token is read at its place.
* `token?_of_mem_tokens`: nothing but a token is ever read as a whole.
-/

namespace CqlGlue.Listing

open Text

/-! ## Reading up to a place -/

/-- Reading the tokens of a text comes to a place behind a first part of it: no token begins
before the place and ends behind it. The tokens read until then are given. -/
inductive ReadsTo : List Char → List Char → List (List Char) → Prop where
  | here (rest : List Char) : ReadsTo [] rest []
  | token {t before rest : List Char} {ts : List (List Char)}
      (ht : token? (t ++ before ++ rest) = some t) (h : ReadsTo before rest ts) :
      ReadsTo (t ++ before) rest (t :: ts)
  | skip {c : Char} {before rest : List Char} {ts : List (List Char)}
      (hc : token? (c :: (before ++ rest)) = none) (h : ReadsTo before rest ts) :
      ReadsTo (c :: before) rest ts

theorem ReadsTo.tokens_eq {before rest : List Char} {ts : List (List Char)}
    (h : ReadsTo before rest ts) : tokens (before ++ rest) = ts ++ tokens rest := by
  induction h with
  | here rest => rfl
  | @token t before rest ts ht _ ih =>
    rw [tokens_of_some ht, List.append_assoc, List.drop_left, ih, List.cons_append]
  | skip hc _ ih => rw [List.cons_append, tokens_of_none hc, ih]

/-! ## Tokens are pieces of the text -/

theorem prefix_of_token? {cs t : List Char} (h : token? cs = some t) : t <+: cs := by
  unfold token? at h
  split at h
  · cases h
  · rename_i rest
    dsimp only at h
    split at h
    · cases h
    · rename_i hbody
      cases h
      simp only [Bool.or_eq_true, not_or, List.isEmpty_iff] at hbody
      obtain ⟨c, closing, hclosing⟩ := List.exists_cons_of_ne_nil hbody.2
      have hquote := List.head?_dropWhile_not (· != '"') rest
      rw [hclosing] at hquote
      obtain rfl : c = '"' := by simpa using hquote
      refine ⟨closing, ?_⟩
      rw [List.cons_append, List.append_assoc, List.singleton_append, ← hclosing,
        List.takeWhile_append_dropWhile]
  · split at h
    · cases h
    · cases h
      exact ⟨_, rfl⟩
  · cases h
    exact ⟨_, rfl⟩
  · split at h
    · rename_i c rest _ _ _ hc
      cases h
      exact List.cons_prefix_cons.2 ⟨rfl, List.takeWhile_prefix _⟩
    · cases h

theorem infix_of_mem_tokens {cs t : List Char} (h : t ∈ tokens cs) : t <:+: cs := by
  induction cs using tokens.induct with
  | case1 => simp [tokens] at h
  | case2 c cs t' ht' _ ih =>
    rw [tokens_of_some ht'] at h
    rcases List.mem_cons.1 h with rfl | h
    · exact (prefix_of_token? ht').isInfix
    · exact (ih h).trans (List.drop_suffix _ _).isInfix
  | case3 c cs hnone ih =>
    rw [tokens_of_none hnone] at h
    exact (ih h).trans (List.suffix_cons c cs).isInfix

/-- A text that is read as a whole is a token. -/
theorem token?_of_mem_tokens {cs : List Char} (h : cs ∈ tokens cs) : token? cs = some cs := by
  cases cs with
  | nil => simp [tokens] at h
  | cons c cs =>
    cases htoken : token? (c :: cs) with
    | none =>
      rw [tokens_of_none htoken] at h
      have hlength := (infix_of_mem_tokens h).length_le
      rw [List.length_cons] at hlength
      omega
    | some t =>
      rw [tokens_of_some htoken] at h
      rcases List.mem_cons.1 h with h | h
      · rw [h]
      · have hlength := (infix_of_mem_tokens h).length_le
        have hpos := List.length_pos_iff.2 (token?_ne_nil htoken)
        rw [List.length_drop] at hlength
        simp only [List.length_cons] at hlength
        omega

/-! ## Places -/

/-- The right-hand side of the last definition of a name. -/
def LastDefinition (text name : String) (line : List Char) : Prop :=
  ∃ earlier raw later, definitions text.toList = earlier ++ (raw, line) :: later ∧
    String.ofList (trim raw) = name ∧ ∀ d ∈ later, String.ofList (trim d.1) ≠ name

/-- A place where a symbol stands by itself in an alternative. -/
structure Place (text symbol : String) where
  /-- The name whose definition the alternative belongs to. -/
  name : String
  /-- The right-hand side of the definition. -/
  line : List Char
  before : List Char
  after : List Char
  /-- The tokens before the place. -/
  read : List (List Char)
  definition : LastDefinition text name line
  mem_alternatives : before ++ symbol.toList ++ after ∈ alternatives line
  notNil : isNil (before ++ symbol.toList ++ after) = false
  left : ∀ c ∈ before.getLast?, isBlank c = true
  right : ∀ c ∈ after.head?, isBlank c = true
  reads : ReadsTo before (symbol.toList ++ after) read

theorem get?_parse_of_lastDefinition {text name : String} {line : List Char}
    (h : LastDefinition text name line) :
    ∃ p, (Grammar.parse text).get? name = some p ∧ p.choices = (readProduction line).choices := by
  obtain ⟨earlier, raw, later, hdefinitions, rfl, hlater⟩ := h
  rw [Grammar.parse, readDefinitions, hdefinitions, List.map_append, List.map_cons]
  exact Grammar.get?_defineAll_of_last (List.forall_mem_map.2 hlater)

namespace Place

variable {text symbol : String} (place : Place text symbol)

/-- The tokens of the alternative of a place. -/
theorem tokens_eq : tokens (place.before ++ symbol.toList ++ place.after) =
    place.read ++ tokens (symbol.toList ++ place.after) := by
  rw [List.append_assoc, place.reads.tokens_eq]

/-- A symbol that is a token is read at its place. -/
theorem tokens_eq_of_token? (h : token? symbol.toList = some symbol.toList) :
    tokens (place.before ++ symbol.toList ++ place.after) =
      place.read ++ symbol.toList :: tokens place.after := by
  rw [tokens_eq]
  congr 1
  cases hafter : place.after with
  | nil => rw [List.append_nil, tokens_of_some h, List.drop_length]
  | cons c after =>
    have hc : isBlank c = true := place.right c (by rw [hafter]; rfl)
    rw [tokens_append_blank h hc, tokens_of_none (token?_blank hc after)]

theorem exists_choice (h : token? symbol.toList = some symbol.toList) :
    ∃ p, (Grammar.parse text).get? place.name = some p ∧
      place.read.map String.ofList ++ symbol :: (tokens place.after).map String.ofList ∈
        p.choices := by
  obtain ⟨p, hp, hchoices⟩ := get?_parse_of_lastDefinition place.definition
  refine ⟨p, hp, ?_⟩
  rw [hchoices, readProduction]
  refine List.mem_filter.2 ⟨List.mem_map.2 ⟨_, List.mem_filter.2
    ⟨place.mem_alternatives, by rw [place.notNil]; rfl⟩, ?_⟩, by simp⟩
  rw [place.tokens_eq_of_token? h, List.map_append, List.map_cons, String.ofList_toList]

end Place

end CqlGlue.Listing
