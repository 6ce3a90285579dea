import CqlGlue.Proofs.EditorGrammar.Rules
import Mathlib.Data.List.Forall2

/-!
# What references to keywords match

The rule of a keyword has a name made from its words, and a reference to the keyword is a reference
to this name. Nothing keeps the names of different keywords apart, and the name of a helper is
looked up like that of a production. So a keyword is matched where it is used exactly if no other
keyword that differs in its words has the same name, and, where it has several words, no production
of this name makes the reference optional or takes the place of the helper.

## Main definitions
* `OnlyWraps` are the configurations that change no reference and leave out no rule.
* `MeansKeyword` says that a symbol stands for a keyword, `MeansKeywords` that all of them do.
* `KeepsKeywordsApart` says that the names of keywords in use are their own.

## Main statements
* `meansKeywords_iff` says that the second condition is exactly what the first one needs.
-/

namespace CqlGlue.EditorGrammar

open Text Listing

/-! ## Definitions -/

/-- Nothing is renamed, suppressed, deleted or overridden. Rules may be wrapped and printed with
line breaks. -/
structure OnlyWraps (config : Config) : Prop extends KeepsReferences config, PrintsAll config where
  suppressed : config.suppressed.names = []

/-- The symbol is the quoted keyword itself, or a reference to a rule that matches its words in
sequence and nothing else. -/
def MeansKeyword (config : Config) (g : Grammar) (t : String) (s : Symbol) : Prop :=
  s = .literal t ∨ ∃ name p, s = .rule name ∧ ruleOf? (generated config g) name = some p ∧
    ∀ w, Matches (generated config g) [p] w ↔ terminals? t = some w

/-- In every rule of a production the keywords of its alternatives are matched where they stand. -/
def MeansKeywords (config : Config) (g : Grammar) : Prop :=
  ∀ name p alternatives lineBreaks wrapper, g.get? name = some p →
    (name, .choices alternatives lineBreaks wrapper) ∈ (build config g).rules.entries →
    List.Forall₂ (List.Forall₂ fun t s => isQuoted t.toList = true → MeansKeyword config g t s)
      p.choices alternatives

/-- The token stands in an alternative of a production that gets a rule. -/
def IsUsed (config : Config) (g : Grammar) (t : String) : Prop :=
  ∃ e ∈ convertedProductions config g, ∃ choice ∈ e.2.choices, t ∈ choice

/-- The rule of every keyword in use is its own. -/
structure KeepsKeywordsApart (config : Config) (g : Grammar) : Prop where
  /-- Keywords with the same name have the same words. -/
  distinct : ∀ t t', IsUsed config g t → IsUsed config g t' → ∀ name,
    keywordRule? t = some name → keywordRule? t' = some name → terminals? t = terminals? t'
  /-- No production that may match nothing has the name of a keyword of several words. -/
  required : ∀ t, IsUsed config g t → t.toList.any isBlank = true → ∀ name,
    keywordRule? t = some name → Grammar.isOptional g name = false
  /-- A production that gets a rule under such a name matches the keyword. -/
  taken : ∀ t, IsUsed config g t → t.toList.any isBlank = true → ∀ name,
    keywordRule? t = some name → name ∈ (convertedProductions config g).map Prod.fst →
    ∀ w, Matches (generated config g) [.rule name] w ↔ terminals? t = some w

variable {config : Config} {g : Grammar}

/-! ## Tokens in use -/

theorem IsUsed.mem_mentioned_splice {t : String} (h : IsUsed config g t) :
    t ∈ mentioned (splice config g) := by
  obtain ⟨e, he, choice, hchoice, ht⟩ := h
  exact mem_mentioned_of_mem_choice (get?_of_mem_convertedProductions he) hchoice ht

section

variable (hshaped : ∀ name p, g.get? name = some p → Shaped p.choices)
include hshaped

theorem IsUsed.shape_of_shaped {t : String} (h : IsUsed config g t) : Shape t.toList :=
  shape_of_mem_mentioned hshaped (mem_mentioned_of_splice h.mem_mentioned_splice)

/-- The meanings in the rules of productions are those of tokens in use. -/
theorem mem_convertedMeanings_iff_isUsed {m : Meaning} :
    m ∈ convertedMeanings config g ↔
      ∃ t, IsUsed config g t ∧ meaning config (splice config g) t = m := by
  rw [mem_convertedMeanings]
  constructor
  · rintro ⟨e, he, hm⟩
    obtain ⟨choice, hchoice, t, ht, -, rfl⟩ := mem_productionMeanings.1 hm
    have hused : IsUsed config g t := ⟨e, he, choice, hchoice, ht⟩
    exact ⟨t, hused, by rw [(hused.shape_of_shaped hshaped).solid.trimmed_eq]⟩
  · rintro ⟨t, hused, rfl⟩
    have hsolid := (hused.shape_of_shaped hshaped).solid
    obtain ⟨e, he, choice, hchoice, ht⟩ := hused
    refine ⟨e, he, mem_productionMeanings.2 ⟨choice, hchoice, t, ht, ?_, ?_⟩⟩
    · rw [hsolid.trimmed_eq]
      exact hsolid.ne_empty
    · rw [hsolid.trimmed_eq]

end

/-! ## Matches -/

theorem IsHelper.matches_iff {rules : List (String × Pattern)} {p : Pattern} {u w : List Terminal}
    (h : IsHelper p u) : Matches rules [p] w ↔ w = u := by
  constructor
  · intro hw
    have hclosed : Closed rules fun _ _ => True := ⟨fun _ _ _ => trivial, fun _ => trivial⟩
    exact h.accepts_iff.1 (acceptsAll_singleton.1 (acceptsAll_of_matches hclosed hw))
  · rintro rfl
    have hmatches : Matches rules [p] (_ ++ []) := h.matches .nil
    rwa [List.append_nil] at hmatches

theorem matches_rule_of_ruleOf? {rules : List (String × Pattern)} {name : String} {p : Pattern}
    (h : ruleOf? rules name = some p) {w : List Terminal} :
    Matches rules [.rule name] w ↔ Matches rules [p] w := by
  constructor
  · intro hw
    cases hw with
    | rule hrule hw =>
      cases h.symm.trans hrule
      exact hw
    | name hnone _ =>
      rw [h] at hnone
      cases hnone
  · exact .rule h

/-! ## Tokens -/

theorem exists_body_of_isQuoted {cs : List Char} (hshape : Shape cs) (h : isQuoted cs = true) :
    ∃ body, cs = '"' :: (body ++ ['"']) ∧ body ≠ [] ∧ '"' ∉ body := by
  cases hshape with
  | double hne hquote => exact ⟨_, rfl, hne, hquote⟩
  | single c => cases h
  | pair => cases h
  | bare _ hbare =>
    have hquote : '"' ∉ cs := fun hmem => absurd (hbare _ hmem) (by decide)
    rw [isQuoted, startsEnclosed_of_not_mem hquote] at h
    cases h

theorem isQuoted_of_keywordRule? {t name : String} (hshape : Shape t.toList)
    (h : keywordRule? t = some name) : isQuoted t.toList = true := by
  rw [keywordRule?] at h
  split at h
  · rename_i rest htoken
    rw [htoken] at hshape ⊢
    cases hshape with
    | double hne hquote => exact isQuoted_quoted hne hquote
    | bare _ hbare => exact absurd (hbare _ List.mem_cons_self) (by decide)
  · cases h

/-- A keyword comes from a token in double quotes. -/
theorem isQuoted_of_keyword_reference {token : String} {k : String × String}
    (h : (reference config g token).keyword = some k) : isQuoted token.toList = true := by
  have hcase := referenceCase config g token
  generalize reference config g token = m at hcase h
  cases hcase with
  | keyword hquoted => exact hquoted
  | _ => cases h

/-- A blank in single quotes is taken for two words. -/
theorem phraseName_single {c : Char} (h : isBlank c = true) :
    phraseName (phraseWords ['\'', c, '\'']) = "'_'" := by
  have hmark : isBlank '\'' = false := by decide
  have hunquote : unquote ['\'', c, '\''] = ['\'', c, '\''] := by simp [unquote]
  have hrest : splitBlanks (trimLeft ['\'']) = [['\'']] := by decide +kernel
  have hcut : ['\'', c, '\''].dropWhile (!isBlank ·) = c :: ['\''] := by simp [hmark, h]
  rw [phraseWords, hunquote, splitBlanks_of_cons hcut, hrest]
  simp [hmark, h, phraseName]

/-- The name of the rule of a keyword holds no quote that the keyword does not hold. -/
theorem not_mem_keywordRuleName {body : List Char} (h : '\'' ∉ body) :
    '\'' ∉ (keywordRuleName body).toList := by
  rw [keywordRuleName]
  split
  · intro hmem
    rcases mem_phraseName hmem with hmem | hmem
    · exact absurd hmem (by decide)
    · exact h hmem
  · rw [keywordName, String.toList_ofList, replaceChar, List.mem_flatMap]
    rintro ⟨c, hc, hmem⟩
    split at hmem
    · exact absurd hmem (by decide)
    · exact h (List.mem_singleton.1 hmem ▸ hc)

/-! ## The tokens of a listing -/

section

variable (hconfig : OnlyWraps config)
  (hshaped : ∀ name p, g.get? name = some p → Shaped p.choices)
  (hplain : ∀ t ∈ mentioned g, isQuoted t.toList = true → IsPlainKeyword t)

section

include hconfig

theorem splice_of_onlyWraps : splice config g = g :=
  splice_eq_self fun name _ => by rw [hconfig.suppressed]; exact List.not_mem_nil

theorem get?_of_mem_converted {e : String × Production} (h : e ∈ convertedProductions config g) :
    g.get? e.1 = some e.2 := by
  have hget := get?_of_mem_convertedProductions h
  rwa [splice_of_onlyWraps hconfig] at hget

theorem IsUsed.mem_mentioned {t : String} (h : IsUsed config g t) : t ∈ mentioned g := by
  have ht := h.mem_mentioned_splice
  rwa [splice_of_onlyWraps hconfig] at ht

include hshaped

theorem IsUsed.shape {t : String} (h : IsUsed config g t) : Shape t.toList :=
  shape_of_mem_mentioned hshaped (h.mem_mentioned hconfig)

/-- Without suppressed productions these are tokens of the listing as it is. -/
theorem mem_convertedMeanings_iff {m : Meaning} :
    m ∈ convertedMeanings config g ↔ ∃ t, IsUsed config g t ∧ meaning config g t = m := by
  rw [mem_convertedMeanings_iff_isUsed hshaped, splice_of_onlyWraps hconfig]

/-- Keywords are matched where they stand exactly if all that are in use are. -/
theorem meansKeywords_iff_forall :
    MeansKeywords config g ↔ ∀ t, IsUsed config g t → isQuoted t.toList = true →
      MeansKeyword config g t (meaning config g t).symbol := by
  have hbody : ∀ e ∈ convertedProductions config g,
      productionBody config (splice config g) e.1 e.2 =
        .choices (e.2.choices.map (·.map fun t => (meaning config g t).symbol))
          (config.lineBreakRules.contains e.1) (config.precedence.get? e.1) := by
    intro e he
    rw [splice_of_onlyWraps hconfig]
    exact productionBody_of_shaped (hshaped e.1 e.2 (get?_of_mem_converted hconfig he))
  have hforall : ∀ p : Production,
      List.Forall₂ (List.Forall₂ fun t s => isQuoted t.toList = true → MeansKeyword config g t s)
          p.choices (p.choices.map (·.map fun t => (meaning config g t).symbol)) ↔
        ∀ choice ∈ p.choices, ∀ t ∈ choice, isQuoted t.toList = true →
          MeansKeyword config g t (meaning config g t).symbol := by
    intro p
    simp only [List.forall₂_map_right_iff, List.forall₂_same]
  rw [MeansKeywords, build_eq hconfig.ruleOverrides]
  constructor
  · rintro h t ⟨e, he, choice, hchoice, ht⟩
    have hrule := mem_rules_of_mem_convertedProductions he
    rw [hbody e he] at hrule
    have hmeans := h e.1 e.2 _ _ _ (get?_of_mem_converted hconfig he) hrule
    exact (hforall e.2).1 hmeans choice hchoice t ht
  · intro h name p alternatives lineBreaks wrapper hp hrule
    rcases mem_rules_buildRules hrule with ⟨q, hq, heq⟩ | ⟨-, m, -, words, -, heq⟩
    · obtain rfl : p = q := Option.some.inj (hp.symm.trans (get?_of_mem_converted hconfig hq))
      rw [hbody (name, p) hq] at heq
      cases heq
      exact (hforall p).2 fun choice hchoice t ht => h t ⟨_, hq, choice, hchoice, ht⟩
    · cases heq

include hplain

/-- A token in double quotes holds no single quote. -/
theorem exists_body_of_isUsed {t : String} (h : IsUsed config g t)
    (hquoted : isQuoted t.toList = true) :
    ∃ body, t.toList = '"' :: (body ++ ['"']) ∧ body ≠ [] ∧ '"' ∉ body ∧ '\'' ∉ body := by
  obtain ⟨body, htoken, hne, hquote⟩ :=
    exists_body_of_isQuoted (h.shape hconfig hshaped) hquoted
  refine ⟨body, htoken, hne, hquote, fun hmem => ?_⟩
  have hin : '\'' ∈ t.toList := by
    rw [htoken]
    simp [hmem]
  rcases hplain t (h.mem_mentioned hconfig) hquoted '\'' hin with hblank | ⟨-, hplain⟩
  · exact absurd hblank (by decide)
  · exact absurd hplain (by decide)

theorem quotedKind_of_isUsed {t : String} (h : IsUsed config g t)
    (hquoted : isQuoted t.toList = true) : QuotedKind g t (meaning config g t) := by
  obtain ⟨body, htoken, hne, hquote, hsingle⟩ :=
    exists_body_of_isUsed hconfig hshaped hplain h hquoted
  exact quotedKind_double hconfig.toKeepsReferences htoken hne hquote hsingle

theorem not_mem_of_keywordRule? {t name : String} (h : IsUsed config g t)
    (hrule : keywordRule? t = some name) : '\'' ∉ name.toList := by
  obtain ⟨body, htoken, -, -, hsingle⟩ := exists_body_of_isUsed hconfig hshaped hplain h
    (isQuoted_of_keywordRule? (h.shape hconfig hshaped) hrule)
  rw [keywordRule?_quoted htoken] at hrule
  split at hrule
  · cases hrule
  · cases hrule
    exact not_mem_keywordRuleName hsingle

/-- A helper is that of a keyword of several words, unless a blank in single quotes has one. -/
theorem of_phrase_of_isUsed {t name : String} {words : List String} (h : IsUsed config g t)
    (hphrase : (meaning config g t).phrase = some (name, words)) (hname : '\'' ∉ name.toList) :
    keywordRule? t = some name ∧ terminals? t = some (phraseTerminals words) ∧
      IsHelper (RuleBody.phrase words).pattern (phraseTerminals words) := by
  have hshape := h.shape hconfig hshaped
  obtain ⟨hblank, heq⟩ := phrase_meaning hphrase
  have hquoted : isQuoted t.toList = true := by
    rcases quoted_or_single_of_any_isBlank hshape hblank with hquoted | ⟨c, htoken, hc⟩
    · exact hquoted
    · rw [htoken, phraseName_single hc] at heq
      exact absurd (heq ▸ by decide) hname
  cases quotedKind_of_isUsed hconfig hshaped hplain h hquoted with
  | mark _ _ hm => rw [hm] at hphrase; cases hphrase
  | keyword _ _ _ _ _ _ hm => rw [hm] at hphrase; cases hphrase
  | phrase _ _ _ hwords hderives hrule hm =>
    rw [hm] at hphrase
    cases hphrase
    exact ⟨hrule, hderives, .phrase _ fun word hword =>
      (hplain t (h.mem_mentioned hconfig) hquoted).matchesSpellings (hwords word hword)⟩

/-- A keyword rule is that of a keyword of one word. -/
theorem of_keyword_of_isUsed {t name word : String} (h : IsUsed config g t)
    (hkeyword : (meaning config g t).keyword = some (name, word)) :
    keywordRule? t = some name ∧ terminals? t = some (phraseTerminals [word]) ∧
      IsHelper (keywordPattern word) (phraseTerminals [word]) := by
  have hshape := h.shape hconfig hshaped
  have hquoted : isQuoted t.toList = true := by
    rw [meaning] at hkeyword
    split at hkeyword
    · rename_i hblank
      have hname := isQuoted_of_keyword_reference hkeyword
      rcases quoted_or_single_of_any_isBlank hshape hblank with hquoted | ⟨c, htoken, hc⟩
      · exact hquoted
      · rw [htoken, phraseName_single hc] at hname
        exact absurd hname (by decide)
    · exact isQuoted_of_keyword_reference hkeyword
  cases quotedKind_of_isUsed hconfig hshaped hplain h hquoted with
  | mark _ _ hm => rw [hm] at hkeyword; cases hkeyword
  | keyword _ _ _ hword hderives hrule hm =>
    rw [hm] at hkeyword
    cases hkeyword
    have hmatches := (hplain t (h.mem_mentioned hconfig) hquoted).matchesSpellings hword
    exact ⟨hrule, hderives, .keyword _ hmatches⟩
  | phrase _ _ _ _ _ _ hm => rw [hm] at hkeyword; cases hkeyword

/-! ## Names -/

/-- A symbol that stands for a keyword with a rule refers to the rule. -/
theorem exists_ruleOf?_of_means {t name : String} (h : IsUsed config g t)
    (hrule : keywordRule? t = some name)
    (hmeans : MeansKeyword config g t (meaning config g t).symbol) :
    (t.toList.any isBlank = true → Grammar.isOptional g name = false) ∧
      ∃ p, ruleOf? (generated config g) name = some p ∧
        ∀ w, Matches (generated config g) [p] w ↔ terminals? t = some w := by
  have hquoted := isQuoted_of_keywordRule? (h.shape hconfig hshaped) hrule
  cases quotedKind_of_isUsed hconfig hshaped hplain h hquoted with
  | mark _ hnone _ => rw [hnone] at hrule; cases hrule
  | keyword name' word hblank _ _ hrule' hm =>
    cases hrule.symm.trans hrule'
    rw [hm] at hmeans
    rcases hmeans with hliteral | ⟨_, p, hsymbol, hp, hmatches⟩
    · cases hliteral
    · cases hsymbol
      exact ⟨fun h => absurd h (by simp [hblank]), p, hp, hmatches⟩
  | phrase name' words _ _ _ hrule' hm =>
    cases hrule.symm.trans hrule'
    rw [hm] at hmeans
    cases hoptional : Grammar.isOptional g name with
    | true =>
      rw [hoptional, if_pos rfl] at hmeans
      rcases hmeans with hliteral | ⟨_, p, hsymbol, -⟩
      · cases hliteral
      · cases hsymbol
    | false =>
      rw [hoptional, if_neg Bool.false_ne_true] at hmeans
      rcases hmeans with hliteral | ⟨_, p, hsymbol, hp, hmatches⟩
      · cases hliteral
      · cases hsymbol
        exact ⟨fun _ => rfl, p, hp, hmatches⟩

omit hplain in
/-- A rule of a single keyword is the last of its name. -/
theorem exists_keyword_of_ruleOf? {name : String} {p : Pattern}
    (hkey : name ∈ (buildRules config g).keywords.keys)
    (hp : ruleOf? (generated config g) name = some p) :
    ∃ t word, IsUsed config g t ∧ (meaning config g t).keyword = some (name, word) ∧
      p = keywordPattern word := by
  obtain ⟨word, hword⟩ := Table.mem_keys_iff.1 hkey
  have hentry : (name, keywordPattern word) ∈
      ((build config g).keywords.map keywordPattern).entries := by
    rw [build_eq hconfig.ruleOverrides]
    exact Table.mem_entries_map.2 ⟨word, hword, rfl⟩
  obtain ⟨q, hq⟩ := exists_ruleOf? hentry
  rw [ruleOf?] at hp hq
  rw [generated, generatedPatterns, List.reverse_append, List.lookup_append, hq, Option.some_or]
    at hp
  obtain rfl : q = p := Option.some_inj.1 hp
  have hmem : (name, q) ∈ ((build config g).keywords.map keywordPattern).entries :=
    mem_of_ruleOf? hq
  obtain ⟨word', hword', rfl⟩ := Table.mem_entries_map.1 hmem
  rw [build_eq hconfig.ruleOverrides] at hword'
  obtain ⟨m, hm, hkeyword⟩ := mem_keywords_buildRules hword'
  obtain ⟨t, ht, rfl⟩ := (mem_convertedMeanings_iff hconfig hshaped).1 hm
  exact ⟨t, word', ht, hkeyword, rfl⟩

variable (hapart : KeepsKeywordsApart config g)
include hapart

/-- The rule of a single keyword matches every keyword of this name. -/
theorem matches_keyword_iff {t name word : String} (h : IsUsed config g t)
    (hrule : keywordRule? t = some name) {t' : String} (h' : IsUsed config g t')
    (hkeyword : (meaning config g t').keyword = some (name, word)) (w : List Terminal) :
    Matches (generated config g) [keywordPattern word] w ↔ terminals? t = some w := by
  obtain ⟨hrule', hderives, hhelper⟩ := of_keyword_of_isUsed hconfig hshaped hplain h' hkeyword
  rw [hapart.distinct t t' h h' name hrule hrule', hderives, hhelper.matches_iff, Option.some_inj,
    eq_comm]

/-- The rule with the name of a keyword of several words matches it, be it the rule of a production,
a helper or the rule of a single keyword. -/
theorem matches_phrase_iff {t name : String} (h : IsUsed config g t)
    (hblank : t.toList.any isBlank = true) (hrule : keywordRule? t = some name) {p : Pattern}
    (hp : ruleOf? (generated config g) name = some p) (w : List Terminal) :
    Matches (generated config g) [p] w ↔ terminals? t = some w := by
  rcases (mem_generated hconfig.toPrintsAll).1 (mem_of_ruleOf? hp)
    with ⟨body, hbody, rfl⟩ | ⟨word, hword, rfl⟩
  · rcases mem_rules_buildRules hbody with ⟨q, hq, -⟩ | ⟨-, m, hm, words, hphrase, rfl⟩
    · rw [← matches_rule_of_ruleOf? hp]
      exact hapart.taken t h hblank name hrule (List.mem_map_of_mem hq) w
    · obtain ⟨t', h', rfl⟩ := (mem_convertedMeanings_iff hconfig hshaped).1 hm
      obtain ⟨hrule', hderives, hhelper⟩ := of_phrase_of_isUsed hconfig hshaped hplain h' hphrase
        (not_mem_of_keywordRule? hconfig hshaped hplain h hrule)
      rw [hapart.distinct t t' h h' name hrule hrule', hderives, hhelper.matches_iff,
        Option.some_inj, eq_comm]
  · obtain ⟨m, hm, hkeyword⟩ := mem_keywords_buildRules hword
    obtain ⟨t', h', rfl⟩ := (mem_convertedMeanings_iff hconfig hshaped).1 hm
    exact matches_keyword_iff hconfig hshaped hplain hapart h hrule h' hkeyword w

/-- Where names are kept apart a keyword is matched where it stands. -/
theorem means_of_isUsed {t : String} (h : IsUsed config g t) (hquoted : isQuoted t.toList = true) :
    MeansKeyword config g t (meaning config g t).symbol := by
  have hregisters :=
    registers_buildRules ((mem_convertedMeanings_iff hconfig hshaped).2 ⟨t, h, rfl⟩)
  cases quotedKind_of_isUsed hconfig hshaped hplain h hquoted with
  | mark _ _ hm => exact .inl (by rw [hm])
  | keyword name word _ _ _ hrule hm =>
    have hkey := hregisters.keyword name word (by rw [hm])
    obtain ⟨word', hword'⟩ := Table.mem_keys_iff.1 hkey
    obtain ⟨p, hp⟩ := exists_ruleOf?
      ((mem_generated hconfig.toPrintsAll).2 (.inr ⟨word', hword', rfl⟩))
    obtain ⟨t', other, h', hkeyword, rfl⟩ :=
      exists_keyword_of_ruleOf? hconfig hshaped hkey hp
    refine .inr ⟨name, _, by rw [hm], hp, ?_⟩
    exact matches_keyword_iff hconfig hshaped hplain hapart h hrule h' hkeyword
  | phrase name words hblank _ hderives hrule hm =>
    have hkey : name ∈ (buildRules config g).rules.keys := by
      refine (mem_takenNames_or_mem_keys
        (hregisters.phrase name words (by rw [hm]))).resolve_left fun htaken => ?_
      have hsuppressed := (mem_takenNames.1 htaken).1
      rw [hconfig.suppressed] at hsuppressed
      cases hsuppressed
    obtain ⟨body, hbody⟩ := Table.mem_keys_iff.1 hkey
    obtain ⟨p, hp⟩ := exists_ruleOf?
      ((mem_generated hconfig.toPrintsAll).2 (.inl ⟨body, hbody, rfl⟩))
    refine .inr ⟨name, p, ?_, hp, fun w => ?_⟩
    · rw [hm, hapart.required t h hblank name hrule]
      rfl
    · exact matches_phrase_iff hconfig hshaped hplain hapart h hblank hrule hp w

end

end

/-! ## All keywords -/

/-- What is printed for a listing is what is read, and its keywords are matched where they stand
exactly if their names are kept apart. -/
theorem meansKeywords_iff (hconfig : OnlyWraps config) (text : String)
    (hplain : ∀ t ∈ mentioned (Grammar.parse text), isQuoted t.toList = true → IsPlainKeyword t) :
    generatedRules config (build config (Grammar.parse text)) =
        (generated config (Grammar.parse text)).map printedRule ∧
      (MeansKeywords config (Grammar.parse text) ↔
        KeepsKeywordsApart config (Grammar.parse text)) := by
  have hshaped : ∀ name p, (Grammar.parse text).get? name = some p → Shaped p.choices :=
    fun _ _ hp => shaped_parse hp
  refine ⟨generatedRules_eq_map hconfig.toPrintsAll, ?_⟩
  rw [meansKeywords_iff_forall hconfig hshaped]
  constructor
  · intro h
    have hmeans : ∀ t, IsUsed config (Grammar.parse text) t → ∀ name, keywordRule? t = some name →
        (t.toList.any isBlank = true → Grammar.isOptional (Grammar.parse text) name = false) ∧
          ∃ p, ruleOf? (generated config (Grammar.parse text)) name = some p ∧
            ∀ w, Matches (generated config (Grammar.parse text)) [p] w ↔ terminals? t = some w :=
      fun t ht name hrule => exists_ruleOf?_of_means hconfig hshaped hplain ht hrule
        (h t ht (isQuoted_of_keywordRule? (ht.shape hconfig hshaped) hrule))
    refine ⟨?_, fun t ht hblank name hrule => (hmeans t ht name hrule).1 hblank, ?_⟩
    · intro t t' ht ht' name hrule hrule'
      obtain ⟨-, p, hp, hmatches⟩ := hmeans t ht name hrule
      obtain ⟨-, p', hp', hmatches'⟩ := hmeans t' ht' name hrule'
      cases hp.symm.trans hp'
      exact Option.ext fun w => (hmatches w).symm.trans (hmatches' w)
    · intro t ht _ name hrule _ w
      obtain ⟨-, p, hp, hmatches⟩ := hmeans t ht name hrule
      rw [matches_rule_of_ruleOf? hp]
      exact hmatches w
  · intro h t ht hquoted
    exact means_of_isUsed hconfig hshaped hplain h ht hquoted

/-- A listing in which a production that may match nothing has the name of a keyword. -/
def optionalNameText : String :=
  "r ::= \"IF NOT\" a\nIF_NOT ::= /* nil */ | x\n"

/-- What is read from it. -/
def optionalName : Grammar where
  entries := [("r", ⟨[["\"IF NOT\"", "a"]], false⟩), ("IF_NOT", ⟨[["x"]], true⟩)]
  distinct := by decide

theorem parse_optionalNameText : Grammar.parse optionalNameText = optionalName :=
  Table.eq_of_entries_eq (by decide +kernel)

/-- The keyword may be left out where it stands. -/
theorem not_meansKeywords_optionalName :
    OnlyWraps (suppressing []) ∧
      (∀ t ∈ mentioned (Grammar.parse optionalNameText), isQuoted t.toList = true →
        IsPlainKeyword t) ∧
      ¬ MeansKeywords (suppressing []) (Grammar.parse optionalNameText) := by
  have hconfig : OnlyWraps (suppressing []) :=
    { renames := rfl, referenceOverrides := rfl, deleted := rfl, ruleOverrides := rfl,
      suppressed := rfl }
  have hplain : ∀ t ∈ mentioned (Grammar.parse optionalNameText), isQuoted t.toList = true →
      IsPlainKeyword t := by
    rw [parse_optionalNameText]
    decide +kernel
  refine ⟨hconfig, hplain, fun hmeans => ?_⟩
  have hapart := (meansKeywords_iff hconfig optionalNameText hplain).2.1 hmeans
  rw [parse_optionalNameText] at hapart
  have hused : IsUsed (suppressing []) optionalName "\"IF NOT\"" :=
    ⟨("r", ⟨[["\"IF NOT\"", "a"]], false⟩), by decide +kernel, _, List.mem_cons_self,
      List.mem_cons_self⟩
  have hrequired := hapart.required _ hused (by decide) "IF_NOT" (by decide +kernel)
  exact absurd hrequired (by decide)

end CqlGlue.EditorGrammar
