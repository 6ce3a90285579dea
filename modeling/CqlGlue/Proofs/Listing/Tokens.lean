import CqlGlue.Listing.Reader
import CqlGlue.Proofs.Table
import CqlGlue.Proofs.Text.Trim

/-!
# The tokens of a listing

Whatever the text, the alternatives read from it are sequences of tokens, none of them empty,
and a token has one of four shapes: a text in double quotes, a character in single quotes, a
pair of single quotes, or a run of bare characters.

## Main definitions
* `Shape` are the shapes of tokens.

## Main statements
* `isBlank_of_isBareChar` says that bare tokens hold no blanks.
* `shape_of_mem_parse` and `ne_nil_of_mem_parse` are what is known of a listing.
-/

namespace CqlGlue.Listing

open Text

/-! ## Characters of bare tokens -/

/-- The numbers of the blanks. -/
def blankNumbers : List Nat :=
  List.range' 9 5 ++ [0x20, 0x85, 0xA0, 0x1680] ++ List.range' 0x2000 11 ++
    [0x2028, 0x2029, 0x202F, 0x205F, 0x3000]

theorem toNat_mem_blankNumbers {c : Char} (h : isBlank c = true) : c.toNat ∈ blankNumbers := by
  simp only [isBlank, Bool.or_eq_true, Bool.and_eq_true, decide_eq_true_eq, beq_iff_eq] at h
  simp only [blankNumbers, List.mem_append, List.mem_range'_1, List.mem_cons, List.not_mem_nil,
    or_false]
  omega

/-- Every blank lies outside every range of word characters. -/
theorem outside_wordRanges :
    (blankNumbers.all fun n => wordRanges.toList.all fun r => Nat.blt n r.1 || Nat.blt r.2 n) =
      true := by decide +kernel

theorem lt_toNat_of_isAlphanum {c : Char} (h : c.isAlphanum = true) : 0x2F < c.toNat := by
  apply Nat.lt_of_not_le
  intro hle
  have hsmall : ((List.range 0x30).all fun n => !(Char.ofNat n).isAlphanum) = true := by decide
  have hc := List.all_eq_true.1 hsmall c.toNat (List.mem_range.2 (Nat.lt_succ_of_le hle))
  rw [Char.ofNat_toNat, h] at hc
  cases hc

theorem isWordChar_of_isBlank {c : Char} (h : isBlank c = true) : isWordChar c = false := by
  have houtside := List.all_eq_true.1 outside_wordRanges _ (toNat_mem_blankNumbers h)
  unfold isWordChar
  split
  · rename_i hascii
    have hsmall : c.toNat ≤ 0x20 := by
      simp only [isBlank, Bool.or_eq_true, Bool.and_eq_true, decide_eq_true_eq, beq_iff_eq] at h
      omega
    rw [Bool.or_eq_false_iff]
    constructor
    · apply Bool.eq_false_iff.2
      intro halnum
      have := lt_toNat_of_isAlphanum halnum
      omega
    · apply Bool.eq_false_iff.2
      intro hc
      rw [beq_iff_eq.1 hc] at hsmall
      exact absurd hsmall (by decide)
  · rw [inRanges, ← Array.any_toList, List.any_eq_false]
    intro r hr
    have := List.all_eq_true.1 houtside r hr
    simp only [Bool.or_eq_true, Nat.blt_eq] at this
    simp only [Bool.and_eq_true, decide_eq_true_eq]
    omega

/-- Blanks are not characters of bare tokens. -/
theorem isBlank_of_isBareChar {c : Char} (h : isBareChar c = true) : isBlank c = false := by
  apply Bool.eq_false_iff.2
  intro hblank
  simp only [isBareChar, Bool.or_eq_true, beq_iff_eq] at h
  rcases h with (h | rfl) | rfl
  · rw [isWordChar_of_isBlank hblank] at h
    exact absurd h (by decide)
  · exact absurd hblank (by decide)
  · exact absurd hblank (by decide)

theorem isBareChar_of_isBlank {c : Char} (h : isBlank c = true) : isBareChar c = false := by
  apply Bool.eq_false_iff.2
  intro hbare
  rw [isBlank_of_isBareChar hbare] at h
  cases h

/-! ## Shapes -/

/-- The shapes of tokens. -/
inductive Shape : List Char → Prop
  | double {body : List Char} (hne : body ≠ []) (hquote : '"' ∉ body) :
      Shape ('"' :: (body ++ ['"']))
  | single (c : Char) : Shape ['\'', c, '\'']
  | pair : Shape ['\'', '\'']
  | bare {cs : List Char} (hne : cs ≠ []) (hbare : ∀ c ∈ cs, isBareChar c = true) : Shape cs

theorem not_mem_takeWhile_ne {mark : Char} (cs : List Char) :
    mark ∉ cs.takeWhile (· != mark) := by
  intro h
  have := List.all_takeWhile (p := (· != mark)) (l := cs)
  rw [List.all_eq_true] at this
  simpa using this mark h

theorem shape_of_token? {cs t : List Char} (h : token? cs = some t) : Shape t := by
  unfold token? at h
  split at h
  · simp at h
  · dsimp only at h
    split at h
    · simp at h
    · rename_i hbody
      simp only [Bool.or_eq_true, not_or, List.isEmpty_iff] at hbody
      cases h
      exact .double hbody.1 (not_mem_takeWhile_ne _)
  · split at h
    · simp at h
    · cases h
      exact .single _
  · cases h
    exact .pair
  · split at h
    · rename_i c rest _ _ _ hc
      cases h
      apply Shape.bare (List.cons_ne_nil _ _)
      intro c' hc'
      rcases List.mem_cons.1 hc' with rfl | hc'
      · exact hc
      · exact List.all_eq_true.1 List.all_takeWhile c' hc'
    · simp at h

theorem tokens_of_some {cs t : List Char} (h : token? cs = some t) :
    tokens cs = t :: tokens (cs.drop t.length) := by
  cases cs with
  | nil => simp [token?] at h
  | cons c cs =>
    rw [tokens]
    split
    · rename_i t' ht'
      obtain rfl : t' = t := Option.some.inj (ht'.symm.trans h)
      rfl
    · rename_i hnone
      exact absurd (hnone.symm.trans h) (by simp)

theorem tokens_of_none {c : Char} {cs : List Char} (h : token? (c :: cs) = none) :
    tokens (c :: cs) = tokens cs := by
  rw [tokens]
  split
  · rename_i t ht
    exact absurd (h.symm.trans ht) (by simp)
  · rfl

theorem shape_of_mem_tokens {cs t : List Char} (h : t ∈ tokens cs) : Shape t := by
  induction cs using tokens.induct with
  | case1 => simp [tokens] at h
  | case2 c cs t' ht' _ ih =>
    rw [tokens_of_some ht'] at h
    rcases List.mem_cons.1 h with rfl | h
    · exact shape_of_token? ht'
    · exact ih h
  | case3 c cs hnone ih =>
    rw [tokens_of_none hnone] at h
    exact ih h

/-- The characters that stand at the ends of tokens. -/
def IsTokenEnd (c : Char) : Prop := c = '"' ∨ c = '\'' ∨ isBareChar c = true

theorem IsTokenEnd.isBlank_eq {c : Char} (h : IsTokenEnd c) : isBlank c = false := by
  rcases h with rfl | rfl | h
  · decide
  · decide
  · exact isBlank_of_isBareChar h

theorem IsTokenEnd.ne {c d : Char} (h : IsTokenEnd c) (hd : isBareChar d = false)
    (hdouble : d ≠ '"') (hsingle : d ≠ '\'') : c ≠ d := by
  rintro rfl
  rcases h with h | h | h
  · exact hdouble h
  · exact hsingle h
  · rw [hd] at h
    cases h

namespace Shape

variable {t : List Char} (h : Shape t)
include h

theorem ne_nil : t ≠ [] := by
  cases h with
  | double _ _ => exact List.cons_ne_nil _ _
  | single _ => exact List.cons_ne_nil _ _
  | pair => exact List.cons_ne_nil _ _
  | bare hne _ => exact hne

theorem head_mem : ∀ c ∈ t.head?, IsTokenEnd c := by
  cases h with
  | double _ _ =>
    rintro c ⟨⟩
    exact .inl rfl
  | single _ =>
    rintro c ⟨⟩
    exact .inr (.inl rfl)
  | pair =>
    rintro c ⟨⟩
    exact .inr (.inl rfl)
  | bare _ hbare => exact fun c hc => .inr (.inr (hbare c (List.mem_of_mem_head? hc)))

theorem getLast_mem : ∀ c ∈ t.getLast?, IsTokenEnd c := by
  cases h with
  | double _ _ =>
    rw [← List.cons_append, List.getLast?_append]
    rintro c ⟨⟩
    exact .inl rfl
  | single _ =>
    rintro c ⟨⟩
    exact .inr (.inl rfl)
  | pair =>
    rintro c ⟨⟩
    exact .inr (.inl rfl)
  | bare _ hbare => exact fun c hc => .inr (.inr (hbare c (List.mem_of_mem_getLast? hc)))

/-- No blank stands at either end of a token. -/
theorem solid : Solid t where
  ne_nil := h.ne_nil
  head c hc := (h.head_mem c hc).isBlank_eq
  last c hc := (h.getLast_mem c hc).isBlank_eq

end Shape

/-! ## Alternatives -/

/-- What is known of alternatives that have been read. -/
def Shaped (choices : List (List String)) : Prop :=
  ∀ choice ∈ choices, choice ≠ [] ∧ ∀ t ∈ choice, Shape t.toList

theorem shaped_readProduction (cs : List Char) : Shaped (readProduction cs).choices := by
  intro choice hchoice
  simp only [readProduction, List.mem_filter, List.mem_map] at hchoice
  obtain ⟨⟨piece, -, rfl⟩, hne⟩ := hchoice
  refine ⟨by simpa using hne, ?_⟩
  intro t ht
  obtain ⟨t', ht', rfl⟩ := List.mem_map.1 ht
  rw [String.toList_ofList]
  exact shape_of_mem_tokens ht'

/-- A property of alternatives that holds of every definition holds of the listing. -/
theorem forall_mem_defineAll {P : List (List String) → Prop} {g : Grammar}
    {definitions : List (String × Production)} (hg : ∀ e ∈ g.entries, P e.2.choices)
    (hdefinitions : ∀ d ∈ definitions, P d.2.choices) :
    ∀ e ∈ (Grammar.defineAll g definitions).entries, P e.2.choices := by
  induction definitions generalizing g with
  | nil => exact hg
  | cons d definitions ih =>
    refine ih ?_ fun d' hd' => hdefinitions d' (List.mem_cons_of_mem _ hd')
    intro e he
    rcases Table.mem_entries_insert he with rfl | he
    · exact hdefinitions d List.mem_cons_self
    · exact hg e he

theorem shaped_parse {text name : String} {p : Production}
    (h : (Grammar.parse text).get? name = some p) : Shaped p.choices := by
  refine forall_mem_defineAll (P := Shaped) ?_ ?_ (name, p) (Table.get?_eq_some_iff.1 h)
  · intro e he
    simp [Table.empty] at he
  · intro d hd
    obtain ⟨d', -, rfl⟩ := List.mem_map.1 hd
    exact shaped_readProduction d'.2

end CqlGlue.Listing
