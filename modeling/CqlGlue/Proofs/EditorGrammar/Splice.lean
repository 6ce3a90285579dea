import CqlGlue.EditorGrammar.Build
import CqlGlue.Proofs.EditorGrammar.Derivation

/-!
# Splicing keeps the language

A suppressed production with a single alternative may be put in place of its name: what the
tokens of the other productions derive stays the same. The alternative itself must not mention
suppressed productions, because what is spliced in is not spliced again.

## Main definitions
* `IsSuppressed` are the productions that are spliced away.
* `SingleChoices` and `Spliceable` are what splicing relies on.

## Main statements
* `get?_splice` is the look-up in a spliced listing.
* `derives_splice_iff` says that spliced tokens derive what the tokens derived before.
-/

namespace CqlGlue.EditorGrammar

open Text Listing

variable {config : Config} {g : Grammar}

/-- The name is that of a production to suppress. -/
def IsSuppressed (config : Config) (g : Grammar) (name : String) : Prop :=
  name ∈ config.suppressed.names ∧ name ∈ g.keys

instance (config : Config) (g : Grammar) (name : String) : Decidable (IsSuppressed config g name) :=
  inferInstanceAs (Decidable (_ ∧ _))

/-- The tables that only suppress productions. -/
def suppressing (names : List String) : Config where
  name := "cql"
  header := ""
  conflicts := []
  lineBreakRules := NameSet.ofList []
  precedence := Table.empty
  renames := Table.empty
  suppressed := NameSet.ofList names
  deleted := NameSet.ofList []
  referenceOverrides := Table.empty
  ruleOverrides := Table.empty

/-! ## Replacements -/

theorem lookup_filterMap_pair {α β : Type} (f : String → Option α) (h : α → β)
    (names : List String) (name : String) :
    (names.filterMap fun n => (f n).map fun a => (n, h a)).lookup name =
      if name ∈ names then (f name).map h else none := by
  induction names with
  | nil => rfl
  | cons n names ih =>
    by_cases hn : name = n
    · subst hn
      cases hf : f name with
      | none =>
        rw [List.filterMap_cons_none (by rw [hf]; rfl), ih, hf]
        simp
      | some a =>
        rw [List.filterMap_cons_some (b := (name, h a)) (by rw [hf]; rfl), List.lookup_cons_self,
          if_pos List.mem_cons_self]
        rfl
    · have hmem : name ∈ n :: names ↔ name ∈ names := by simp [hn]
      have hbeq : (name == n) = false := beq_eq_false_iff_ne.2 hn
      cases hf : f n with
      | none =>
        rw [List.filterMap_cons_none (by rw [hf]; rfl), ih]
        simp only [hmem]
      | some a =>
        rw [List.filterMap_cons_some (b := (n, h a)) (by rw [hf]; rfl), List.lookup_cons, hbeq, ih]
        simp only [hmem]

/-- What the name of a suppressed production is replaced by. -/
theorem lookup_replacements (name : String) :
    (replacements config g).lookup name =
      if name ∈ config.suppressed.names then
        (g.get? name).map fun p => p.choices.head?.getD []
      else none :=
  lookup_filterMap_pair _ _ _ _

theorem lookup_replacements_eq_none_iff {name : String} :
    (replacements config g).lookup name = none ↔ ¬ IsSuppressed config g name := by
  rw [lookup_replacements, IsSuppressed]
  split
  · rename_i h
    rw [Option.map_eq_none_iff, Table.get?_eq_none_iff]
    simp [h]
  · rename_i h
    simp [h]

theorem exists_of_lookup_replacements {name : String} {c : List String}
    (h : (replacements config g).lookup name = some c) :
    ∃ p, g.get? name = some p ∧ p.choices.head?.getD [] = c := by
  rw [lookup_replacements] at h
  split at h
  · exact Option.map_eq_some_iff.1 h
  · exact absurd h (by simp)

theorem get?_splice {name : String} {p : Production} :
    (splice config g).get? name = some p ↔
      ¬ IsSuppressed config g name ∧
        ∃ q, g.get? name = some q ∧ spliceProduction (replacements config g) q = p := by
  rw [Table.get?_eq_some_iff, splice, Table.mem_entries_filter, Table.mem_entries_map,
    Option.isNone_iff_eq_none, lookup_replacements_eq_none_iff, and_comm]
  simp only [Table.get?_eq_some_iff]

theorem get?_splice_eq_none {name : String} (h : g.get? name = none) :
    (splice config g).get? name = none := by
  cases hget : (splice config g).get? name with
  | none => rfl
  | some p =>
    obtain ⟨-, q, hq, -⟩ := get?_splice.1 hget
    rw [h] at hq
    exact absurd hq (by simp)

theorem mem_keys_of_mem_keys_splice {name : String} (h : name ∈ (splice config g).keys) :
    name ∈ g.keys := by
  obtain ⟨p, hp⟩ := Table.mem_keys_iff.1 h
  obtain ⟨-, q, hq, -⟩ := get?_splice.1 (Table.get?_eq_some_iff.2 hp)
  exact Table.mem_keys_of_mem_entries (Table.get?_eq_some_iff.1 hq)

/-! ## Tokens -/

variable {rs : List (String × List String)}

theorem spliceTokens_append (ts us : List String) :
    spliceTokens rs (ts ++ us) = spliceTokens rs ts ++ spliceTokens rs us :=
  List.flatMap_append

theorem spliceTokens_cons_none {t : String} (h : rs.lookup t = none) (ts : List String) :
    spliceTokens rs (t :: ts) = t :: spliceTokens rs ts := by
  rw [spliceTokens, List.flatMap_cons, h]
  rfl

theorem spliceTokens_cons_some {t : String} {c : List String} (h : rs.lookup t = some c)
    (ts : List String) : spliceTokens rs (t :: ts) = c ++ spliceTokens rs ts := by
  rw [spliceTokens, List.flatMap_cons, h]
  rfl

theorem spliceTokens_eq_self {ts : List String} (h : ∀ t ∈ ts, rs.lookup t = none) :
    spliceTokens rs ts = ts := by
  induction ts with
  | nil => rfl
  | cons t ts ih =>
    rw [spliceTokens_cons_none (h t List.mem_cons_self),
      ih fun u hu => h u (List.mem_cons_of_mem _ hu)]

theorem mem_spliceTokens {ts : List String} {t : String} :
    t ∈ spliceTokens rs ts ↔
      (t ∈ ts ∧ rs.lookup t = none) ∨ ∃ n ∈ ts, ∃ c, rs.lookup n = some c ∧ t ∈ c := by
  simp only [spliceTokens, List.mem_flatMap]
  constructor
  · rintro ⟨n, hn, ht⟩
    cases hlookup : rs.lookup n with
    | none =>
      rw [hlookup, Option.getD_none, List.mem_singleton] at ht
      subst ht
      exact .inl ⟨hn, hlookup⟩
    | some c =>
      rw [hlookup, Option.getD_some] at ht
      exact .inr ⟨n, hn, c, hlookup, ht⟩
  · rintro (⟨ht, hlookup⟩ | ⟨n, hn, c, hlookup, ht⟩)
    · exact ⟨t, ht, by simp [hlookup]⟩
    · exact ⟨n, hn, by simpa [hlookup] using ht⟩

/-- Splicing brings in no new tokens. -/
theorem mem_mentioned_of_splice {t : String} (ht : t ∈ mentioned (splice config g)) :
    t ∈ mentioned g := by
  obtain ⟨name, p, hp, choice, hchoice, htc⟩ := mem_mentioned.1 ht
  obtain ⟨-, q, hq, rfl⟩ := get?_splice.1 hp
  obtain ⟨c, hc, rfl⟩ := List.mem_map.1 hchoice
  rcases mem_spliceTokens.1 htc with ⟨htc, -⟩ | ⟨n, -, c', hlookup, htc'⟩
  · exact mem_mentioned.2 ⟨name, q, hq, c, hc, htc⟩
  · obtain ⟨q', hq', hc'⟩ := exists_of_lookup_replacements hlookup
    cases hhead : q'.choices.head? with
    | none =>
      rw [hhead] at hc'
      subst hc'
      simp at htc'
    | some first =>
      rw [hhead] at hc'
      subst hc'
      exact mem_mentioned.2 ⟨n, q', hq', _, List.mem_of_head? hhead, htc'⟩

/-! ## Nothing to splice -/

theorem replacements_eq_nil (h : ∀ name ∈ g.keys, name ∉ config.suppressed.names) :
    replacements config g = [] := by
  apply List.filterMap_eq_nil_iff.2
  intro name hname
  have hget : g.get? name = none := Table.get?_eq_none_iff.2 fun hkey => h name hkey hname
  rw [hget]
  rfl

/-- A listing without suppressed productions stays as it is. -/
theorem splice_eq_self (h : ∀ name ∈ g.keys, name ∉ config.suppressed.names) :
    splice config g = g := by
  have hproduction : ∀ p : Production, spliceProduction [] p = p := by
    intro p
    have htokens : ∀ ts : List String, spliceTokens [] ts = ts := fun ts =>
      spliceTokens_eq_self fun _ _ => rfl
    simp [spliceProduction, funext htokens]
  apply Table.eq_of_entries_eq
  simp [splice, replacements_eq_nil h, Table.map, Table.filter, hproduction]

/-! ## What is spliced in -/

/-- As long as what is spliced in mentions no suppressed production, none is mentioned after
splicing. -/
theorem not_isSuppressed_of_mem_spliceTokens
    (hfirst : ∀ name p, IsSuppressed config g name → g.get? name = some p →
      ∀ t ∈ p.choices.head?.getD [], ¬ IsSuppressed config g t)
    {ts : List String} {t : String} (ht : t ∈ spliceTokens (replacements config g) ts) :
    ¬ IsSuppressed config g t := by
  rcases mem_spliceTokens.1 ht with ⟨-, hlookup⟩ | ⟨n, -, c, hlookup, htc⟩
  · exact lookup_replacements_eq_none_iff.1 hlookup
  · have hn : IsSuppressed config g n := by
      apply Decidable.byContradiction
      intro hn
      rw [lookup_replacements_eq_none_iff.2 hn] at hlookup
      exact absurd hlookup (by simp)
    obtain ⟨p, hp, rfl⟩ := exists_of_lookup_replacements hlookup
    exact hfirst n p hn hp t htc

/-! ## The language -/

/-- Every suppressed production has a single alternative, which mentions none of them, and is
not optional. -/
structure SingleChoices (config : Config) (g : Grammar) : Prop where
  required : ∀ name, IsSuppressed config g name → Grammar.isOptional g name = false
  single : ∀ name, IsSuppressed config g name → ∀ p, g.get? name = some p →
    ∃ choice, p.choices = [choice] ∧ ∀ t ∈ choice, ¬ IsSuppressed config g t

/-- Suppressed productions that can be spliced: besides, none is named like a quoted token in
use. Such a token would be replaced as well. -/
structure Spliceable (config : Config) (g : Grammar) : Prop extends SingleChoices config g where
  bare : ∀ token ∈ mentioned g, IsSuppressed config g token → terminals? token = none

namespace SingleChoices

variable (h : SingleChoices config g)
include h

/-- A suppressed name is replaced by the only alternative of its production. -/
theorem exists_choice {name : String} {c : List String}
    (hc : (replacements config g).lookup name = some c) :
    IsSuppressed config g name ∧
      ∃ p, g.get? name = some p ∧ p.optional = false ∧ p.choices = [c] ∧
        ∀ t ∈ c, ¬ IsSuppressed config g t := by
  have hs : IsSuppressed config g name := by
    apply Decidable.byContradiction
    intro hs
    rw [lookup_replacements_eq_none_iff.2 hs] at hc
    exact absurd hc (by simp)
  obtain ⟨p, hp, rfl⟩ := exists_of_lookup_replacements hc
  obtain ⟨choice, hchoices, hfree⟩ := h.single name hs p hp
  have hoptional : p.optional = false := by
    have := h.required name hs
    rwa [Grammar.isOptional, hp, Option.any_some] at this
  refine ⟨hs, p, hp, hoptional, ?_⟩
  rw [hchoices]
  exact ⟨rfl, hfree⟩

/-- After splicing no suppressed production is mentioned. -/
theorem not_isSuppressed {ts : List String} {t : String}
    (ht : t ∈ spliceTokens (replacements config g) ts) : ¬ IsSuppressed config g t := by
  refine not_isSuppressed_of_mem_spliceTokens ?_ ht
  intro name p hname hp t' ht'
  obtain ⟨choice, hchoices, hfree⟩ := h.single name hname p hp
  rw [hchoices] at ht'
  exact hfree t' ht'

end SingleChoices

namespace Spliceable

variable (h : Spliceable config g)
include h

theorem derives_spliced {ts : List String} {w : List Terminal} (hts : ∀ t ∈ ts, t ∈ mentioned g)
    (hd : Derives g ts w) :
    Derives (splice config g) (spliceTokens (replacements config g) ts) w := by
  induction hd with
  | nil => exact .nil
  | @quoted token tokens u w htoken _ ih =>
    have hfree : ¬ IsSuppressed config g token := by
      intro hs
      rw [h.bare token (hts token List.mem_cons_self) hs] at htoken
      exact absurd htoken (by simp)
    rw [spliceTokens_cons_none (lookup_replacements_eq_none_iff.2 hfree)]
    exact .quoted htoken (ih fun t ht => hts t (List.mem_cons_of_mem _ ht))
  | @undefined name tokens w hbare hname _ ih =>
    have hfree : ¬ IsSuppressed config g name := fun hs => Table.get?_eq_none_iff.1 hname hs.2
    rw [spliceTokens_cons_none (lookup_replacements_eq_none_iff.2 hfree)]
    exact .undefined hbare (get?_splice_eq_none hname)
      (ih fun t ht => hts t (List.mem_cons_of_mem _ ht))
  | @choice name p choice tokens w hbare hname hchoice _ ih =>
    have hmentioned : ∀ t ∈ choice ++ tokens, t ∈ mentioned g := by
      intro t ht
      rcases List.mem_append.1 ht with ht | ht
      · exact mem_mentioned.2 ⟨name, p, hname, choice, hchoice, ht⟩
      · exact hts t (List.mem_cons_of_mem _ ht)
    have hrest := ih hmentioned
    rw [spliceTokens_append] at hrest
    cases hlookup : (replacements config g).lookup name with
    | none =>
      rw [spliceTokens_cons_none hlookup]
      have hget := get?_splice.2 ⟨lookup_replacements_eq_none_iff.1 hlookup, p, hname, rfl⟩
      exact .choice hbare hget (List.mem_map.2 ⟨choice, hchoice, rfl⟩) hrest
    | some c =>
      obtain ⟨-, q, hq, -, hchoices, hfree⟩ := h.exists_choice hlookup
      obtain rfl : p = q := Option.some.inj (hname.symm.trans hq)
      obtain rfl : choice = c := by rwa [hchoices, List.mem_singleton] at hchoice
      rw [spliceTokens_cons_some hlookup]
      rwa [spliceTokens_eq_self fun t ht => lookup_replacements_eq_none_iff.2 (hfree t ht)]
        at hrest
  | @empty name p tokens w hbare hname hoptional _ ih =>
    have hfree : ¬ IsSuppressed config g name := by
      intro hs
      have := h.required name hs
      rw [Grammar.isOptional, hname, Option.any_some, hoptional] at this
      exact absurd this (by simp)
    rw [spliceTokens_cons_none (lookup_replacements_eq_none_iff.2 hfree)]
    have hget := get?_splice.2 ⟨hfree, p, hname, rfl⟩
    exact .empty hbare hget hoptional (ih fun t ht => hts t (List.mem_cons_of_mem _ ht))

/-- In the listing itself a suppressed name derives what is spliced in for it. -/
theorem derives_of_spliceTokens {ts : List String} {w : List Terminal}
    (hts : ∀ t ∈ ts, t ∈ mentioned g)
    (hd : Derives g (spliceTokens (replacements config g) ts) w) : Derives g ts w := by
  induction ts generalizing w with
  | nil => exact hd
  | cons t ts ih =>
    have hts' : ∀ u ∈ ts, u ∈ mentioned g := fun u hu => hts u (List.mem_cons_of_mem _ hu)
    cases hlookup : (replacements config g).lookup t with
    | none =>
      rw [spliceTokens_cons_none hlookup, ← List.singleton_append] at hd
      obtain ⟨v, v', rfl, ht, hrest⟩ := derives_append_iff.1 hd
      exact ht.append (ih hts' hrest)
    | some c =>
      obtain ⟨hs, p, hp, -, hchoices, -⟩ := h.exists_choice hlookup
      rw [spliceTokens_cons_some hlookup] at hd
      obtain ⟨v, v', rfl, hc, hrest⟩ := derives_append_iff.1 hd
      have hbare := h.bare t (hts t List.mem_cons_self) hs
      exact .choice hbare hp (hchoices ▸ List.mem_singleton.2 rfl) (hc.append (ih hts' hrest))

theorem derives_of_splice {ts : List String} {w : List Terminal}
    (hts : ∀ t ∈ ts, ¬ IsSuppressed config g t) (hd : Derives (splice config g) ts w) :
    Derives g ts w := by
  induction hd with
  | nil => exact .nil
  | quoted htoken _ ih =>
    exact .quoted htoken (ih fun t ht => hts t (List.mem_cons_of_mem _ ht))
  | @undefined name tokens w hbare hname _ ih =>
    have hget : g.get? name = none := by
      cases hq : g.get? name with
      | none => rfl
      | some q =>
        rw [get?_splice.2 ⟨hts name List.mem_cons_self, q, hq, rfl⟩] at hname
        exact absurd hname (by simp)
    exact .undefined hbare hget (ih fun t ht => hts t (List.mem_cons_of_mem _ ht))
  | @choice name p choice tokens w hbare hname hchoice _ ih =>
    obtain ⟨-, q, hq, rfl⟩ := get?_splice.1 hname
    obtain ⟨c, hc, rfl⟩ := List.mem_map.1 hchoice
    have hfree : ∀ t ∈ spliceTokens (replacements config g) c ++ tokens,
        ¬ IsSuppressed config g t := by
      intro t ht
      rcases List.mem_append.1 ht with ht | ht
      · exact h.not_isSuppressed ht
      · exact hts t (List.mem_cons_of_mem _ ht)
    obtain ⟨v, v', rfl, hv, hrest⟩ := derives_append_iff.1 (ih hfree)
    have hmentioned : ∀ t ∈ c, t ∈ mentioned g :=
      fun t ht => mem_mentioned.2 ⟨name, q, hq, c, hc, ht⟩
    exact .choice hbare hq hc ((h.derives_of_spliceTokens hmentioned hv).append hrest)
  | @empty name p tokens w hbare hname hoptional _ ih =>
    obtain ⟨-, q, hq, rfl⟩ := get?_splice.1 hname
    exact .empty hbare hq hoptional (ih fun t ht => hts t (List.mem_cons_of_mem _ ht))

/-- Spliced tokens derive in the spliced listing what the tokens derive in the listing. -/
theorem derives_splice_iff {ts : List String} {w : List Terminal}
    (hts : ∀ t ∈ ts, t ∈ mentioned g) :
    Derives (splice config g) (spliceTokens (replacements config g) ts) w ↔ Derives g ts w := by
  constructor
  · intro hd
    have hfree : ∀ t ∈ spliceTokens (replacements config g) ts, ¬ IsSuppressed config g t :=
      fun t ht => h.not_isSuppressed ht
    exact h.derives_of_spliceTokens hts (h.derives_of_splice hfree hd)
  · exact h.derives_spliced hts

end Spliceable

end CqlGlue.EditorGrammar
