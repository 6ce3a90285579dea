import CqlGlue.Proofs.EditorGrammar.Drafts
import CqlGlue.Proofs.EditorGrammar.Pattern
import CqlGlue.Proofs.EditorGrammar.Splice
import CqlGlue.Proofs.EditorGrammar.Tokens

/-!
# The rules generated for a listing

The names of generated rules are made from productions and from keywords alike. Where a listing
does not use one name for both, nor one name for different keywords, the rule of every name is
known: it is that of the production, or it matches the words of the keyword, and a bare name
without a production has none.

## Main definitions
* `PrintsAll` are the configurations that print every rule as it is made.
* `OnlySplices` are the configurations that change nothing but by splicing.
* `Unambiguous` are the listings whose names can be told apart, `Unescaped` those whose tokens mean
  the same in the generated file.
* `generated` are the rules of a listing as they are read.

## Main statements
* `ruleOf?_production`, `ruleOf?_keyword` and `ruleOf?_undefined` look up the three kinds of names.
-/

namespace CqlGlue.EditorGrammar

open Text Listing

/-- Every rule of the draft is printed as it is there. -/
structure PrintsAll (config : Config) : Prop where
  renames : config.renames.entries = []
  deleted : config.deleted.names = []
  ruleOverrides : config.ruleOverrides.entries = []

/-- Nothing is renamed, deleted, overridden or wrapped. Productions may be suppressed, and rules
printed with line breaks. -/
structure OnlySplices (config : Config) : Prop extends KeepsReferences config where
  precedence : config.precedence.entries = []
  deleted : config.deleted.names = []
  ruleOverrides : config.ruleOverrides.entries = []

theorem OnlySplices.printsAll {config : Config} (h : OnlySplices config) : PrintsAll config :=
  ⟨h.renames, h.deleted, h.ruleOverrides⟩

/-- Quoted tokens are plain, and the names of the rules made from keywords differ from those of
productions, from bare tokens, and from each other where the keywords differ. -/
structure Unambiguous (g : Grammar) : Prop where
  plain : ∀ t ∈ mentioned g, IsPlainToken t = true
  fresh : ∀ t ∈ mentioned g, ∀ name ∈ keywordRule? t, name ∉ g.keys
  unused : ∀ t ∈ mentioned g, ∀ name ∈ keywordRule? t, ∀ t' ∈ mentioned g,
    terminals? t' = none → t' ≠ name
  distinct : ∀ t ∈ mentioned g, ∀ t' ∈ mentioned g, ∀ name ∈ keywordRule? t,
    keywordRule? t' = some name → terminals? t = terminals? t'

/-- No token begins an escape where it is put into the generated file, and the characters of
keywords have no other meaning in a pattern. -/
structure Unescaped (g : Grammar) : Prop where
  token : ∀ t ∈ mentioned g, '\\' ∉ t.toList
  keyword : ∀ t ∈ mentioned g, keywordRule? t ≠ none → IsPlainKeyword t

/-- A listing whose names can be told apart, whose tokens need no escapes and whose alternatives are
sequences of tokens, as they are in every listing that has been read from a text. -/
structure Readable (g : Grammar) : Prop extends Unambiguous g, Unescaped g where
  shaped : ∀ name p, g.get? name = some p → Shaped p.choices

/-- The rules generated for a listing, as they are read. -/
def generated (config : Config) (g : Grammar) : List (String × Pattern) :=
  generatedPatterns config (build config g)

variable {config : Config} {g : Grammar}

/-! ## The tokens of a listing -/

/-- Tokens with a shape are neither trimmed nor dropped. -/
theorem meanings_of_shape {tokens : List String} (h : ∀ t ∈ tokens, Shape t.toList) :
    meanings config g tokens = tokens.map (meaning config g) := by
  have htrimmed : tokens.map trimmed = tokens := by
    rw [List.map_congr_left fun t ht => (h t ht).solid.trimmed_eq]
    exact List.map_id' tokens
  rw [meanings, htrimmed, List.filter_eq_self.2]
  intro t ht
  simpa using (h t ht).solid.ne_empty

/-- The rule of a production has the alternatives that are not empty. -/
theorem productionBody_of_shapes {name : String} {p : Production}
    (h : ∀ choice ∈ p.choices, ∀ t ∈ choice, Shape t.toList) :
    productionBody config g name p =
      .choices ((p.choices.filter (!·.isEmpty)).map (·.map fun t => (meaning config g t).symbol))
        (config.lineBreakRules.contains name) (config.precedence.get? name) := by
  have hsymbols : (p.choices.map (meanings config g)).map (·.map Meaning.symbol) =
      p.choices.map (·.map fun t => (meaning config g t).symbol) := by
    rw [List.map_map]
    refine List.map_congr_left fun choice hchoice => ?_
    rw [Function.comp_apply, meanings_of_shape (h choice hchoice), List.map_map]
    rfl
  rw [productionBody, hsymbols, List.filter_map]
  simp only [Function.comp_def, List.isEmpty_map]

/-- No alternative is dropped from the rule of a production. -/
theorem productionBody_of_shaped {name : String} {p : Production} (h : Shaped p.choices) :
    productionBody config g name p =
      .choices (p.choices.map (·.map fun t => (meaning config g t).symbol))
        (config.lineBreakRules.contains name) (config.precedence.get? name) := by
  rw [productionBody_of_shapes fun choice hchoice => (h choice hchoice).2, List.filter_eq_self.2]
  intro choice hchoice
  simpa using (h choice hchoice).1

namespace Readable

variable (h : Readable g)
include h

theorem shape {t : String} (ht : t ∈ mentioned g) : Shape t.toList :=
  shape_of_mem_mentioned h.shaped ht

theorem visible {t : String} (ht : t ∈ mentioned g) : trimmed t = t ∧ t ≠ "" :=
  ⟨(h.shape ht).solid.trimmed_eq, (h.shape ht).solid.ne_empty⟩

theorem not_mem_keys_splice {t name : String} (ht : t ∈ mentioned (splice config g))
    (hrule : keywordRule? t = some name) : name ∉ (splice config g).keys :=
  fun hkey => h.fresh t (mem_mentioned_of_splice ht) name hrule (mem_keys_of_mem_keys_splice hkey)

theorem kind (hconfig : KeepsReferences config) {t : String}
    (ht : t ∈ mentioned (splice config g)) :
    TokenKind (splice config g) t (meaning config (splice config g) t) := by
  have htg : t ∈ mentioned g := mem_mentioned_of_splice ht
  exact tokenKind_meaning hconfig (h.shape htg) (h.plain t htg) fun _ hrule =>
    h.not_mem_keys_splice ht hrule

/-- The words of a keyword in use are matched in either case. -/
theorem matchesSpellings {t name word : String} (ht : t ∈ mentioned (splice config g))
    (hrule : keywordRule? t = some name) (hword : IsWordOf t word) :
    MatchesSpellings (lowercase word) := by
  have hplain := h.keyword t (mem_mentioned_of_splice ht) (by simp [hrule])
  exact hplain.matchesSpellings hword

/-- Splicing leaves no alternative empty. -/
theorem ne_nil_of_splice (hsingle : SingleChoices config g) {name : String} {p : Production}
    (hp : (splice config g).get? name = some p) {choice : List String}
    (hchoice : choice ∈ p.choices) : choice ≠ [] := by
  obtain ⟨-, q, hq, rfl⟩ := get?_splice.1 hp
  obtain ⟨c, hc, rfl⟩ := List.mem_map.1 hchoice
  cases c with
  | nil => exact absurd rfl (h.shaped name q hq [] hc).1
  | cons t ts =>
    cases hlookup : (replacements config g).lookup t with
    | none =>
      rw [spliceTokens_cons_none hlookup]
      exact List.cons_ne_nil _ _
    | some c' =>
      obtain ⟨-, q', hq', -, hchoices, -⟩ := hsingle.exists_choice hlookup
      have hne : c' ≠ [] := (h.shaped t q' hq' c' (hchoices ▸ List.mem_singleton.2 rfl)).1
      rw [spliceTokens_cons_some hlookup]
      exact List.append_ne_nil_of_left_ne_nil hne _

/-- The meanings in use are those of the tokens. -/
theorem mem_usedMeanings_iff {m : Meaning} :
    m ∈ usedMeanings config (splice config g) ↔
      ∃ t ∈ mentioned (splice config g), meaning config (splice config g) t = m := by
  rw [mem_usedMeanings]
  constructor
  · rintro ⟨e, he, hm⟩
    have hp : (splice config g).get? e.1 = some e.2 := Table.get?_eq_some_iff.2 he
    obtain ⟨choice, hchoice, t, htc, -, rfl⟩ := mem_productionMeanings.1 hm
    have ht := mem_mentioned_of_mem_choice hp hchoice htc
    exact ⟨t, ht, by rw [(h.visible (mem_mentioned_of_splice ht)).1]⟩
  · rintro ⟨t, ht, rfl⟩
    obtain ⟨name, p, hp, choice, hchoice, htc⟩ := mem_mentioned.1 ht
    obtain ⟨htrimmed, hne⟩ := h.visible (mem_mentioned_of_splice ht)
    refine ⟨(name, p), Table.get?_eq_some_iff.1 hp, mem_productionMeanings.2 ?_⟩
    exact ⟨choice, hchoice, t, htc, by rwa [htrimmed], by rw [htrimmed]⟩

/-- No alternative is dropped from the rule of a spliced production. -/
theorem productionBody_eq (hsingle : SingleChoices config g) {name : String} {p : Production}
    (hp : (splice config g).get? name = some p) :
    productionBody config (splice config g) name p =
      .choices (p.choices.map (·.map fun t => (meaning config (splice config g) t).symbol))
        (config.lineBreakRules.contains name) (config.precedence.get? name) :=
  productionBody_of_shaped fun _ hchoice => ⟨h.ne_nil_of_splice hsingle hp hchoice, fun _ ht =>
    h.shape (mem_mentioned_of_splice (mem_mentioned_of_mem_choice hp hchoice ht))⟩

end Readable

/-! ## The rules of a listing -/

theorem isDeleted_eq_false (hconfig : PrintsAll config) (name : String) :
    config.isDeleted name = false := by
  rw [Config.isDeleted, NameSet.contains, hconfig.deleted, Table.values, hconfig.renames]
  rfl

theorem mem_generated (hconfig : PrintsAll config) {name : String} {p : Pattern} :
    (name, p) ∈ generated config g ↔
      (∃ body, (name, body) ∈ (buildRules config g).rules.entries ∧ body.pattern = p) ∨
        ∃ word, (name, word) ∈ (buildRules config g).keywords.entries ∧
          keywordPattern word = p := by
  rw [generated, generatedPatterns, build_eq hconfig.ruleOverrides, List.mem_append,
    Table.mem_entries_map, Table.mem_entries_map]
  simp only [Table.mem_entries_filter, isDeleted_eq_false hconfig, Bool.not_false, and_true]

/-- The rules are read as they are printed. -/
theorem generatedRules_eq_map (hconfig : PrintsAll config) :
    generatedRules config (build config g) = (generated config g).map printedRule := by
  apply generatedRules_eq
  intro name text hmem
  rw [build_eq hconfig.ruleOverrides] at hmem
  rcases mem_rules_buildRules hmem with ⟨p, -, hbody⟩ | ⟨-, m, -, words, -, hbody⟩
  · cases hbody
  · cases hbody

section

variable (hconfig : OnlySplices config) (h : Readable g)
include hconfig h

/-- A generated rule is that of a production or that of a keyword. -/
theorem rule_cases {name : String} {p : Pattern} (hp : (name, p) ∈ generated config g) :
    (∃ q, (splice config g).get? name = some q ∧
        p = (productionBody config (splice config g) name q).pattern) ∨
      ∃ t ∈ mentioned (splice config g), keywordRule? t = some name ∧
        ∃ u, terminals? t = some u ∧ IsHelper p u := by
  rcases (mem_generated hconfig.printsAll).1 hp with ⟨body, hbody, rfl⟩ | ⟨word, hword, rfl⟩
  · rcases mem_rules_buildRules hbody with ⟨q, hq, rfl⟩ | ⟨-, m, hm, words, hphrase, rfl⟩
    · exact .inl ⟨q, get?_of_mem_convertedProductions hq, rfl⟩
    · obtain ⟨t, ht, rfl⟩ :=
        h.mem_usedMeanings_iff.1 (mem_usedMeanings_of_mem_convertedMeanings hm)
      obtain ⟨hrule, hderives, hwords⟩ := (h.kind hconfig.toKeepsReferences ht).of_phrase hphrase
      exact .inr ⟨t, ht, hrule, _, hderives, .phrase words fun word hword =>
        h.matchesSpellings ht hrule (hwords word hword)⟩
  · obtain ⟨m, hm, hkeyword⟩ := mem_keywords_buildRules hword
    obtain ⟨t, ht, rfl⟩ :=
      h.mem_usedMeanings_iff.1 (mem_usedMeanings_of_mem_convertedMeanings hm)
    obtain ⟨hrule, hderives, hword⟩ := (h.kind hconfig.toKeepsReferences ht).of_keyword hkeyword
    exact .inr ⟨t, ht, hrule, _, hderives, .keyword word (h.matchesSpellings ht hrule hword)⟩

/-- The rule of a production. -/
theorem ruleOf?_production {name : String} {p : Production}
    (hp : (splice config g).get? name = some p) :
    ruleOf? (generated config g) name =
      some (productionBody config (splice config g) name p).pattern := by
  have hkey : name ∈ (splice config g).keys :=
    Table.mem_keys_of_mem_entries (Table.get?_eq_some_iff.1 hp)
  obtain ⟨body, hbody⟩ := Table.mem_keys_iff.1 (mem_keys_buildRules hp)
  obtain ⟨q, hq⟩ := exists_ruleOf? ((mem_generated hconfig.printsAll).2 (.inl ⟨body, hbody, rfl⟩))
  rw [hq]
  rcases rule_cases hconfig h (mem_of_ruleOf? hq) with ⟨p', hp', rfl⟩ | ⟨t, ht, hrule, -⟩
  · cases hp.symm.trans hp'
    rfl
  · exact absurd hkey (h.not_mem_keys_splice ht hrule)

/-- Every keyword in use has a rule. -/
theorem exists_mem_generated {t name : String} (ht : t ∈ mentioned (splice config g))
    (hrule : keywordRule? t = some name) : ∃ p, (name, p) ∈ generated config g := by
  have hregisters : (buildRules config g).Registers (meaning config (splice config g) t) := by
    obtain ⟨e, he, hm⟩ := mem_usedMeanings.1 (h.mem_usedMeanings_iff.2 ⟨t, ht, rfl⟩)
    rw [← convertedProductions_eq] at he
    · exact registers_buildRules (mem_convertedMeanings.2 ⟨e, he, hm⟩)
    · intro m hm name words hphrase
      obtain ⟨t', ht', rfl⟩ := h.mem_usedMeanings_iff.1 hm
      obtain ⟨hrule', -, -⟩ := (h.kind hconfig.toKeepsReferences ht').of_phrase hphrase
      exact h.not_mem_keys_splice ht' hrule'
  cases h.kind hconfig.toKeepsReferences ht with
  | mark _ hnone _ => rw [hnone] at hrule; cases hrule
  | bare _ hnone _ => rw [hnone] at hrule; cases hrule
  | keyword name' word _ _ hrule' hm =>
    cases hrule.symm.trans hrule'
    obtain ⟨word', hword'⟩ := Table.mem_keys_iff.1 (hregisters.keyword name word (by rw [hm]))
    exact ⟨_, (mem_generated hconfig.printsAll).2 (.inr ⟨word', hword', rfl⟩)⟩
  | phrase name' words _ _ hrule' hm =>
    cases hrule.symm.trans hrule'
    rcases mem_takenNames_or_mem_keys (hregisters.phrase name words (by rw [hm]))
      with htaken | hkey
    · exact absurd (mem_takenNames.1 htaken).2
        (h.fresh t (mem_mentioned_of_splice ht) name hrule)
    · obtain ⟨body, hbody⟩ := Table.mem_keys_iff.1 hkey
      exact ⟨_, (mem_generated hconfig.printsAll).2 (.inl ⟨body, hbody, rfl⟩)⟩

/-- The rule of a keyword. -/
theorem ruleOf?_keyword {t name : String} {u : List Terminal}
    (ht : t ∈ mentioned (splice config g)) (hrule : keywordRule? t = some name)
    (hu : terminals? t = some u) :
    ∃ p, ruleOf? (generated config g) name = some p ∧ IsHelper p u := by
  obtain ⟨p, hp⟩ := exists_mem_generated hconfig h ht hrule
  obtain ⟨q, hq⟩ := exists_ruleOf? hp
  refine ⟨q, hq, ?_⟩
  rcases rule_cases hconfig h (mem_of_ruleOf? hq)
    with ⟨p', hp', -⟩ | ⟨t', ht', hrule', u', hu', hq'⟩
  · exact absurd (Table.mem_keys_of_mem_entries (Table.get?_eq_some_iff.1 hp'))
      (h.not_mem_keys_splice ht hrule)
  · -- Another keyword may have given its name to the rule, but only one with the same words.
    rw [h.distinct t (mem_mentioned_of_splice ht) t' (mem_mentioned_of_splice ht') name hrule
      hrule'] at hu
    cases hu.symm.trans hu'
    exact hq'

/-- A bare token without a production has no rule. -/
theorem ruleOf?_undefined {t : String} (ht : t ∈ mentioned (splice config g))
    (hbare : terminals? t = none) (hname : (splice config g).get? t = none) :
    ruleOf? (generated config g) t = none := by
  cases hq : ruleOf? (generated config g) t with
  | none => rfl
  | some q =>
    rcases rule_cases hconfig h (mem_of_ruleOf? hq) with ⟨p, hp, -⟩ | ⟨t', ht', hrule, -⟩
    · exact absurd (hname.symm.trans hp) (by simp)
    · exact absurd rfl (h.unused t' (mem_mentioned_of_splice ht') t hrule t
        (mem_mentioned_of_splice ht) hbare)

end

end CqlGlue.EditorGrammar
