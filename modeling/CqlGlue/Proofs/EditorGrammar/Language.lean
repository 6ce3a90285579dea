import CqlGlue.Proofs.EditorGrammar.Rules

/-!
# Generation keeps the language

The rule generated for a production matches what the alternatives of the production derive.
That a production may match nothing is not part of its rule: it is said wherever the rule is
referred to, so that a reference matches all that the production derives.

## Main definitions
* `NameDerives` is what the names of generated rules derive.
* `KeepsLanguage` is the equality of languages.

## Main statements
* `keepsLanguage_parse` says that generation keeps the language of every listing that can be
  read and spliced.
* `not_keepsLanguage_quoted` are listings for which the languages differ: one with a suppressed
  production named like a keyword, one with a backslash in quotes, and one with a keyword whose
  pattern accepts other texts.
-/

namespace CqlGlue.EditorGrammar

open Text Listing

/-- A token as an expression. -/
def tokenPattern (config : Config) (g : Grammar) (token : String) : Pattern :=
  (meaning config (splice config g) token).symbol.pattern

variable {config : Config} {g : Grammar}

section

variable (hconfig : OnlySplices config) (h : Readable g)
include hconfig h

/-! ## From the listing to the rules -/

/-- The expression of a bare token. -/
theorem tokenPattern_bare {t : String} (ht : t ∈ mentioned (splice config g))
    (hbare : terminals? t = none) :
    tokenPattern config g t =
      if Grammar.isOptional (splice config g) t then .optional (.rule t) else .rule t := by
  cases h.kind hconfig.toKeepsReferences ht with
  | mark hderives _ _ => rw [hderives] at hbare; cases hbare
  | keyword _ _ _ hderives _ _ => rw [hderives] at hbare; cases hbare
  | phrase _ _ _ hderives _ _ => rw [hderives] at hbare; cases hbare
  | bare _ _ hm =>
    rw [tokenPattern, hm]
    dsimp only
    split <;> rfl

/-- The expression of a quoted token is a literal or refers to the rule of a keyword. -/
theorem tokenPattern_quoted {t : String} {u : List Terminal}
    (ht : t ∈ mentioned (splice config g)) (hu : terminals? t = some u) :
    (tokenPattern config g t = .literal t ∧ quotedText? t = some (unquoted t) ∧
        u = [.mark (unquoted t)]) ∨
      ∃ name, keywordRule? t = some name ∧ tokenPattern config g t = .rule name := by
  cases h.kind hconfig.toKeepsReferences ht with
  | mark hderives hrule hm =>
    have htg : t ∈ mentioned g := mem_mentioned_of_splice ht
    have htext := quotedText?_of_mark (h.shape htg) (h.plain t htg) (h.token t htg) hrule hu
    cases hu.symm.trans hderives
    rw [tokenPattern, hm]
    exact .inl ⟨rfl, htext, rfl⟩
  | keyword name _ _ _ hrule hm =>
    rw [tokenPattern, hm]
    exact .inr ⟨name, hrule, rfl⟩
  | phrase name _ _ _ hrule hm =>
    rw [tokenPattern, hm]
    exact .inr ⟨name, hrule, rfl⟩
  | bare hderives _ _ => rw [hu] at hderives; cases hderives

variable (hsplice : SingleChoices config g)
include hsplice

/-- The expression of the rule of a production. -/
theorem pattern_productionBody {name : String} {p : Production}
    (hp : (splice config g).get? name = some p) :
    (productionBody config (splice config g) name p).pattern =
      choicePattern
        (p.choices.map (·.map fun t => (meaning config (splice config g) t).symbol))
        (config.lineBreakRules.contains name) := by
  rw [h.productionBody_eq hsplice hp, get?_of_entries_eq_nil hconfig.precedence]
  rfl

omit hconfig h hsplice in
theorem map_pattern_eq (tokens : List String) :
    (tokens.map fun t => (meaning config (splice config g) t).symbol).map Symbol.pattern =
      tokens.map (tokenPattern config g) :=
  List.map_map

/-- A rule matches what an alternative of its production matches. -/
theorem matches_rule {name : String} {p : Production} {choice : List String}
    {ps : List Pattern} {w : List Terminal} (hp : (splice config g).get? name = some p)
    (hchoice : choice ∈ p.choices)
    (hw : Matches (generated config g) (choice.map (tokenPattern config g) ++ ps) w) :
    Matches (generated config g) (.rule name :: ps) w := by
  refine .rule (ruleOf?_production hconfig h hp) ?_
  rw [pattern_productionBody hconfig h hsplice hp]
  apply matches_choicePattern (List.mem_map_of_mem hchoice)
  rw [map_pattern_eq]
  exact hw

/-- What tokens derive is matched by their expressions. -/
theorem matches_of_derives {tokens : List String} {w : List Terminal}
    (htokens : ∀ t ∈ tokens, t ∈ mentioned (splice config g))
    (hd : Derives (splice config g) tokens w) :
    Matches (generated config g) (tokens.map (tokenPattern config g)) w := by
  induction hd with
  | nil => exact .nil
  | @quoted token tokens u w hu _ ih =>
    have ht := htokens token List.mem_cons_self
    have hrest := ih fun t ht => htokens t (List.mem_cons_of_mem _ ht)
    rw [List.map_cons]
    rcases tokenPattern_quoted hconfig h ht hu
      with ⟨hpattern, htext, rfl⟩ | ⟨name, hrule, hpattern⟩
    · rw [hpattern]
      exact .literal htext hrest
    · obtain ⟨p, hp, hhelper⟩ := ruleOf?_keyword hconfig h ht hrule hu
      rw [hpattern]
      exact .rule hp (hhelper.matches hrest)
  | @undefined name tokens w hbare hname _ ih =>
    have ht := htokens name List.mem_cons_self
    have hrest := ih fun t ht => htokens t (List.mem_cons_of_mem _ ht)
    rw [List.map_cons, tokenPattern_bare hconfig h ht hbare, Grammar.isOptional, hname,
      if_neg (by simp)]
    exact .name (ruleOf?_undefined hconfig h ht hbare hname) hrest
  | @choice name p choice tokens w hbare hname hchoice _ ih =>
    have hmentioned : ∀ t ∈ choice ++ tokens, t ∈ mentioned (splice config g) := by
      intro t ht
      rcases List.mem_append.1 ht with ht | ht
      · exact mem_mentioned_of_mem_choice hname hchoice ht
      · exact htokens t (List.mem_cons_of_mem _ ht)
    have hrest := ih hmentioned
    rw [List.map_append] at hrest
    have hrule := matches_rule hconfig h hsplice hname hchoice hrest
    rw [List.map_cons, tokenPattern_bare hconfig h (htokens name List.mem_cons_self) hbare]
    split
    · exact .take hrule
    · exact hrule
  | @empty name p tokens w hbare hname hoptional _ ih =>
    have hrest := ih fun t ht => htokens t (List.mem_cons_of_mem _ ht)
    rw [List.map_cons, tokenPattern_bare hconfig h (htokens name List.mem_cons_self) hbare,
      Grammar.isOptional, hname, Option.any_some, hoptional, if_pos rfl]
    exact .skip hrest

end

/-! ## From the rules to the listing -/

/-- What the names of generated rules derive: a production its alternatives, the name made from
a keyword its words, any other name itself. -/
inductive NameDerives (config : Config) (g : Grammar) (name : String) : List Terminal → Prop
  | production {p : Production} {choice : List String} {w : List Terminal}
      (hp : (splice config g).get? name = some p) (hchoice : choice ∈ p.choices)
      (h : Derives (splice config g) choice w) : NameDerives config g name w
  | keyword {token : String} {u : List Terminal} (ht : token ∈ mentioned (splice config g))
      (hrule : keywordRule? token = some name) (hu : terminals? token = some u) :
      NameDerives config g name u
  | undefined (h : ruleOf? (generated config g) name = none) :
      NameDerives config g name [.name name]

section

variable (hconfig : OnlySplices config) (h : Readable g)
include hconfig h

/-- What the name made from a keyword derives is derived by the keyword. -/
theorem derives_of_keywordRule? {t name : String} {u w : List Terminal}
    (ht : t ∈ mentioned (splice config g)) (hu : terminals? t = some u)
    (hrule : keywordRule? t = some name) (hw : NameDerives config g name w) :
    Derives (splice config g) [t] w := by
  cases hw with
  | production hp _ _ =>
    exact absurd (Table.mem_keys_of_mem_entries (Table.get?_eq_some_iff.1 hp))
      (h.not_mem_keys_splice ht hrule)
  | keyword ht' hrule' hu' =>
    rw [← h.distinct t (mem_mentioned_of_splice ht) _ (mem_mentioned_of_splice ht') name hrule
      hrule'] at hu'
    have hquoted : Derives (splice config g) [t] (w ++ []) := .quoted hu' .nil
    rwa [List.append_nil] at hquoted
  | undefined hnone =>
    obtain ⟨p, hp, -⟩ := ruleOf?_keyword hconfig h ht hrule hu
    exact absurd (hnone.symm.trans hp) (by simp)

/-- What a name derives that stands in the listing is derived by it as a token. -/
theorem derives_of_nameDerives {t : String} {w : List Terminal}
    (ht : t ∈ mentioned (splice config g)) (hu : terminals? t = none)
    (hw : NameDerives config g t w) : Derives (splice config g) [t] w := by
  cases hw with
  | @production p choice _ hp hchoice hd =>
    apply Derives.choice hu hp hchoice
    rw [List.append_nil]
    exact hd
  | keyword ht' hrule' _ =>
    exact absurd rfl (h.unused _ (mem_mentioned_of_splice ht') t hrule' t
      (mem_mentioned_of_splice ht) hu)
  | undefined hnone =>
    refine .undefined hu ?_ .nil
    cases hp : (splice config g).get? t with
    | none => rfl
    | some p => exact absurd (hnone.symm.trans (ruleOf?_production hconfig h hp)) (by simp)

/-- What the expression of a token stands for is derived by the token. -/
theorem derives_of_accepts {t : String} {w : List Terminal}
    (ht : t ∈ mentioned (splice config g))
    (hw : (tokenPattern config g t).Accepts (NameDerives config g) w) :
    Derives (splice config g) [t] w := by
  cases hu : terminals? t with
  | some u =>
    rcases tokenPattern_quoted hconfig h ht hu
      with ⟨hpattern, htext, rfl⟩ | ⟨name, hrule, hpattern⟩
    · rw [hpattern] at hw
      obtain ⟨text, htext', rfl⟩ := hw
      cases htext.symm.trans htext'
      exact .quoted hu .nil
    · rw [hpattern] at hw
      exact derives_of_keywordRule? hconfig h ht hu hrule hw
  | none =>
    rw [tokenPattern_bare hconfig h ht hu] at hw
    split at hw
    · rename_i hoptional
      rcases hw with rfl | hw
      · obtain ⟨p, hp, hpo⟩ := (Option.any_eq_true _ _).1 hoptional
        exact .empty hu hp hpo .nil
      · exact derives_of_nameDerives hconfig h ht hu hw
    · exact derives_of_nameDerives hconfig h ht hu hw

theorem derives_of_acceptsAll {tokens : List String} {w : List Terminal}
    (htokens : ∀ t ∈ tokens, t ∈ mentioned (splice config g))
    (hw : AcceptsAll (NameDerives config g) (tokens.map (tokenPattern config g)) w) :
    Derives (splice config g) tokens w := by
  induction tokens generalizing w with
  | nil =>
    obtain rfl : w = [] := hw
    exact .nil
  | cons t tokens ih =>
    obtain ⟨u, v, rfl, hu, hv⟩ := hw
    have hhead := derives_of_accepts hconfig h (htokens t List.mem_cons_self) hu
    exact hhead.append (ih (fun t ht => htokens t (List.mem_cons_of_mem _ ht)) hv)

/-- What the names of the rules derive holds whatever the rules ask for. -/
theorem closed_nameDerives (hsplice : SingleChoices config g) :
    Closed (generated config g) (NameDerives config g) where
  name hnone := .undefined hnone
  rule := by
    intro name p hrule w hw
    rcases rule_cases hconfig h (mem_of_ruleOf? hrule)
      with ⟨q, hq, rfl⟩ | ⟨t, ht, hname, u, hu, hhelper⟩
    · rw [pattern_productionBody hconfig h hsplice hq, accepts_choicePattern] at hw
      obtain ⟨symbols, hsymbols, hw⟩ := hw
      obtain ⟨choice, hchoice, rfl⟩ := List.mem_map.1 hsymbols
      rw [map_pattern_eq] at hw
      exact .production hq hchoice (derives_of_acceptsAll hconfig h
        (fun t ht => mem_mentioned_of_mem_choice hq hchoice ht) hw)
    · rw [hhelper.accepts_iff] at hw
      subst hw
      exact .keyword ht hname hu

/-- The rule of a production matches what its alternatives derive. -/
theorem matches_rule_iff (hsplice : Spliceable config g) {name : String} {p : Production}
    (hp : g.get? name = some p) (hkept : ¬ IsSuppressed config g name) {w : List Terminal} :
    Matches (generated config g) [.rule name] w ↔ ∃ choice ∈ p.choices, Derives g choice w := by
  have hq := get?_splice.2 ⟨hkept, p, hp, rfl⟩
  constructor
  · intro hw
    have hname : NameDerives config g name w :=
      acceptsAll_singleton.1
        (acceptsAll_of_matches (closed_nameDerives hconfig h hsplice.toSingleChoices) hw)
    cases hname with
    | production hq' hchoice hd =>
      cases hq.symm.trans hq'
      obtain ⟨choice, hc, rfl⟩ := List.mem_map.1 hchoice
      have hmentioned : ∀ t ∈ choice, t ∈ mentioned g :=
        fun t ht => mem_mentioned_of_mem_choice hp hc ht
      exact ⟨choice, hc, (hsplice.derives_splice_iff hmentioned).1 hd⟩
    | keyword ht hrule _ =>
      exact absurd (Table.mem_keys_of_mem_entries (Table.get?_eq_some_iff.1 hq))
        (h.not_mem_keys_splice ht hrule)
    | undefined hnone =>
      exact absurd (hnone.symm.trans (ruleOf?_production hconfig h hq)) (by simp)
  · rintro ⟨choice, hc, hd⟩
    have hmentioned : ∀ t ∈ choice, t ∈ mentioned g :=
      fun t ht => mem_mentioned_of_mem_choice hp hc ht
    have hchoice : spliceTokens (replacements config g) choice ∈
        (spliceProduction (replacements config g) p).choices := List.mem_map_of_mem hc
    have hspliced := matches_of_derives hconfig h hsplice.toSingleChoices
      (fun t ht => mem_mentioned_of_mem_choice hq hchoice ht)
      ((hsplice.derives_splice_iff hmentioned).2 hd)
    apply matches_rule hconfig h hsplice.toSingleChoices hq hchoice
    rw [List.append_nil]
    exact hspliced

/-- A reference to a production matches what the production derives. -/
theorem matches_reference_iff (hsplice : Spliceable config g) {name : String} {p : Production}
    (hp : g.get? name = some p) (hkept : ¬ IsSuppressed config g name) {w : List Terminal} :
    Matches (generated config g) [(bareSymbol config (splice config g) name).pattern] w ↔
      ProductionDerives g p w := by
  have hq := get?_splice.2 ⟨hkept, p, hp, rfl⟩
  have hsymbol : (bareSymbol config (splice config g) name).pattern =
      if p.optional then .optional (.rule name) else .rule name := by
    rw [bareSymbol, get?_of_entries_eq_nil hconfig.referenceOverrides, Grammar.isOptional, hq]
    dsimp only [Option.any_some, spliceProduction]
    exact apply_ite Symbol.pattern _ _ _
  rw [hsymbol, ProductionDerives, ← matches_rule_iff hconfig h hsplice hp hkept]
  cases p.optional with
  | true =>
    rw [if_pos rfl]
    constructor
    · intro hw
      cases hw with
      | skip hw => cases hw; exact .inr ⟨rfl, rfl⟩
      | take hw => exact .inl hw
    · rintro (hw | ⟨-, rfl⟩)
      · exact .take hw
      · exact .skip .nil
  | false =>
    rw [if_neg Bool.false_ne_true]
    constructor
    · exact .inl
    · rintro (hw | ⟨hfalse, -⟩)
      · exact hw
      · cases hfalse

end

/-! ## The whole listing -/

/-- A name of the listing: that of a production, a bare token, or one made from a keyword. -/
def IsNameOf (g : Grammar) (name : String) : Prop :=
  name ∈ g.keys ∨ ∃ t ∈ mentioned g, terminals? t = none ∧ name = t ∨ keywordRule? t = some name

/-- The generated grammar has the language of the listing: what is printed is what is read, its
names are those of the listing, and every production that is not suppressed has a rule that matches
what its alternatives derive, and references that match what the production derives. -/
structure KeepsLanguage (config : Config) (g : Grammar) : Prop where
  printed : generatedRules config (build config g) = (generated config g).map printedRule
  names : ∀ rule ∈ generated config g, ∀ name ∈ rule.1 :: rule.2.names, IsNameOf g name
  defined : ∀ name p, g.get? name = some p → ¬ IsSuppressed config g name →
    ∃ body, ruleOf? (generated config g) name = some body
  rule : ∀ name p, g.get? name = some p → ¬ IsSuppressed config g name → ∀ w,
    Matches (generated config g) [.rule name] w ↔ ∃ choice ∈ p.choices, Derives g choice w
  reference : ∀ name p, g.get? name = some p → ¬ IsSuppressed config g name → ∀ w,
    Matches (generated config g) [(bareSymbol config (splice config g) name).pattern] w ↔
      ProductionDerives g p w

/-- All names of generated rules, and all they refer to, are names of the listing. -/
theorem isNameOf_of_generated (hconfig : OnlySplices config) (h : Readable g)
    (hsplice : SingleChoices config g) {rule : String × Pattern} (hrule : rule ∈ generated config g)
    {name : String} (hname : name ∈ rule.1 :: rule.2.names) : IsNameOf g name := by
  rcases rule_cases hconfig h hrule with ⟨q, hq, hpattern⟩ | ⟨t, ht, hkeyword, u, -, hhelper⟩
  · rcases List.mem_cons.1 hname with rfl | hname
    · obtain ⟨-, p, hp, -⟩ := get?_splice.1 hq
      exact .inl (Table.mem_keys_of_mem_entries (Table.get?_eq_some_iff.1 hp))
    · rw [hpattern, pattern_productionBody hconfig h hsplice hq] at hname
      obtain ⟨symbols, hsymbols, s, hs, hname⟩ := exists_symbol_of_mem_names hname
      obtain ⟨choice, hchoice, rfl⟩ := List.mem_map.1 hsymbols
      obtain ⟨t, htc, rfl⟩ := List.mem_map.1 hs
      have ht := mem_mentioned_of_mem_choice hq hchoice htc
      refine .inr ⟨t, mem_mentioned_of_splice ht, ?_⟩
      change name ∈ (tokenPattern config g t).names at hname
      cases hu : terminals? t with
      | none =>
        rw [tokenPattern_bare hconfig h ht hu] at hname
        refine .inl ⟨rfl, ?_⟩
        split at hname <;> exact List.mem_singleton.1 hname
      | some u =>
        rcases tokenPattern_quoted hconfig h ht hu
          with ⟨hpattern, -, -⟩ | ⟨other, hkeyword, hpattern⟩
        · rw [hpattern] at hname
          cases hname
        · rw [hpattern] at hname
          exact .inr (List.mem_singleton.1 hname ▸ hkeyword)
  · rw [hhelper.names_eq, List.mem_singleton] at hname
    exact .inr ⟨t, mem_mentioned_of_splice ht, .inr (hname ▸ hkeyword)⟩

/-- Generation keeps the language of every listing that can be read. -/
theorem keepsLanguage_parse (hconfig : OnlySplices config) (text : String)
    (hlisting : Unambiguous (Grammar.parse text)) (htokens : Unescaped (Grammar.parse text))
    (hsplice : Spliceable config (Grammar.parse text)) :
    KeepsLanguage config (Grammar.parse text) := by
  have h : Readable (Grammar.parse text) := ⟨hlisting, htokens, fun _ _ hp => shaped_parse hp⟩
  refine ⟨generatedRules_eq_map hconfig.printsAll, fun rule hrule name hname =>
    isNameOf_of_generated hconfig h hsplice.toSingleChoices hrule hname, ?_, ?_, ?_⟩
  · intro name p hp hkept
    exact ⟨_, ruleOf?_production hconfig h (get?_splice.2 ⟨hkept, p, hp, rfl⟩)⟩
  · intro name p hp hkept w
    exact matches_rule_iff hconfig h hsplice hp hkept
  · intro name p hp hkept w
    exact matches_reference_iff hconfig h hsplice hp hkept

theorem onlySplices_suppressing (names : List String) : OnlySplices (suppressing names) :=
  ⟨⟨rfl, rfl⟩, rfl, rfl, rfl⟩

/-- A listing with an optional production, a keyword of two words and a production `t` that can
be spliced. -/
def conditionText : String :=
  "s ::= \"IF NOT\" opt '(' t\nopt ::= /* nil */ | \"foo\" opt\nt ::= \"bar\" x\n"

/-- What is read from it. -/
def condition : Grammar where
  entries := [("s", ⟨[["\"IF NOT\"", "opt", "'('", "t"]], false⟩),
    ("opt", ⟨[["\"foo\"", "opt"]], true⟩), ("t", ⟨[["\"bar\"", "x"]], false⟩)]
  distinct := by decide

theorem parse_conditionText : Grammar.parse conditionText = condition :=
  Table.eq_of_entries_eq (by decide +kernel)

theorem eq_of_isSuppressed {name other : String} {g : Grammar}
    (h : IsSuppressed (suppressing [other]) g name) : name = other :=
  List.mem_singleton.1 h.1

theorem keepsLanguage_condition :
    KeepsLanguage (suppressing ["t"]) (Grammar.parse conditionText) := by
  refine keepsLanguage_parse (onlySplices_suppressing _) conditionText ?_ ?_ ?_
  · rw [parse_conditionText]
    exact ⟨by decide +kernel, by decide +kernel, by decide +kernel, by decide +kernel⟩
  · rw [parse_conditionText]
    exact ⟨by decide +kernel, by decide +kernel⟩
  · rw [parse_conditionText]
    refine ⟨⟨?_, ?_⟩, by decide +kernel⟩
    · intro name hname
      rw [eq_of_isSuppressed hname]
      rfl
    · intro name hname p hp
      rw [eq_of_isSuppressed hname] at hp
      cases hp
      exact ⟨_, rfl, by decide +kernel⟩

/-- A listing in which a production is named like a keyword. -/
def quotedNameText : String := "r ::= \"foo\"\n\"foo\" ::= x\n"

/-- What is read from it. -/
def quotedName : Grammar where
  entries := [("r", ⟨[["\"foo\""]], false⟩), ("\"foo\"", ⟨[["x"]], false⟩)]
  distinct := by decide

theorem parse_quotedNameText : Grammar.parse quotedNameText = quotedName :=
  Table.eq_of_entries_eq (by decide +kernel)

/-- What is generated for it when that production is suppressed. -/
theorem generated_quotedName :
    generated (suppressing ["\"foo\""]) quotedName = [("r", .rule "x")] :=
  rfl

/-- The listing derives the keyword from `r`, the generated rule matches the name `x` instead. -/
theorem not_keepsLanguage_quotedName : ¬ KeepsLanguage (suppressing ["\"foo\""]) quotedName := by
  intro h
  have hkeyword : Derives quotedName ["\"foo\""] ([.word "foo"] ++ []) :=
    .quoted (by decide +kernel) .nil
  have hmatches := (h.rule "r" ⟨[["\"foo\""]], false⟩ rfl (by decide) [.word "foo"]).2
    ⟨_, List.mem_singleton.2 rfl, hkeyword⟩
  rw [generated_quotedName] at hmatches
  cases hmatches with
  | rule hrule hmatches =>
    cases hrule
    cases hmatches with
    | rule hrule _ => cases hrule

/-- A listing with a mark that ends no text in the generated file. -/
def backslashText : String := "r ::= '\\'\n"

/-- What is read from it. -/
def backslash : Grammar where
  entries := [("r", ⟨[["'\\'"]], false⟩)]
  distinct := by decide

theorem parse_backslashText : Grammar.parse backslashText = backslash :=
  Table.eq_of_entries_eq (by decide +kernel)

theorem not_keepsLanguage_backslash : ¬ KeepsLanguage (suppressing []) backslash := by
  intro h
  have hmark : Derives backslash ["'\\'"] ([.mark "\\"] ++ []) := .quoted (by decide +kernel) .nil
  have hmatches := (h.rule "r" ⟨[["'\\'"]], false⟩ rfl (by decide) [.mark "\\"]).2
    ⟨_, List.mem_singleton.2 rfl, hmark⟩
  have hgenerated : generated (suppressing []) backslash = [("r", .literal "'\\'")] := rfl
  rw [hgenerated] at hmatches
  cases hmatches with
  | rule hrule hmatches =>
    cases hrule
    cases hmatches with
    | literal htext _ => simp [quotedText?] at htext

/-- A listing with a keyword in which the pattern leaves out characters. -/
def caretText : String := "r ::= \"a^b\"\n"

/-- What is read from it. -/
def caret : Grammar where
  entries := [("r", ⟨[["\"a^b\""]], false⟩)]
  distinct := by decide

theorem parse_caretText : Grammar.parse caretText = caret :=
  Table.eq_of_entries_eq (by decide +kernel)

theorem not_keepsLanguage_caret : ¬ KeepsLanguage (suppressing []) caret := by
  intro h
  have hkeyword : Derives caret ["\"a^b\""] ([.word "a^b"] ++ []) :=
    .quoted (by decide +kernel) .nil
  have hmatches := (h.rule "r" ⟨[["\"a^b\""]], false⟩ rfl (by decide) [.word "a^b"]).2
    ⟨_, List.mem_singleton.2 rfl, hkeyword⟩
  have hgenerated : generated (suppressing []) caret =
      [("r", .rule "a^b"), ("a^b", .caseless "a^b")] := rfl
  rw [hgenerated] at hmatches
  cases hmatches with
  | rule hrule hmatches =>
    cases hrule
    cases hmatches with
    | rule hrule hmatches =>
      cases hrule
      generalize hw : [Terminal.word "a^b"] = w at hmatches
      cases hmatches with
      | caseless hword _ =>
        have hother := (hword.spellings ['a', 'x', 'b']).1 (by decide +kernel)
        rw [show "a^b".toList = ['a', '^', 'b'] from rfl] at hother
        simp at hother

theorem not_keepsLanguage_quoted :
    (OnlySplices (suppressing ["\"foo\""]) ∧ Unambiguous (Grammar.parse quotedNameText) ∧
      Unescaped (Grammar.parse quotedNameText) ∧
      SingleChoices (suppressing ["\"foo\""]) (Grammar.parse quotedNameText) ∧
      ¬ KeepsLanguage (suppressing ["\"foo\""]) (Grammar.parse quotedNameText)) ∧
    ∀ text ∈ [backslashText, caretText],
      OnlySplices (suppressing []) ∧ Unambiguous (Grammar.parse text) ∧
        Spliceable (suppressing []) (Grammar.parse text) ∧
        ¬ KeepsLanguage (suppressing []) (Grammar.parse text) := by
  have hnone : ∀ g, Spliceable (suppressing []) g := fun g =>
    ⟨⟨fun _ h => absurd h.1 List.not_mem_nil, fun _ h => absurd h.1 List.not_mem_nil⟩,
      fun _ _ h => absurd h.1 List.not_mem_nil⟩
  refine ⟨?_, ?_⟩
  · rw [parse_quotedNameText]
    refine ⟨onlySplices_suppressing _, ?_, ?_, ⟨?_, ?_⟩, not_keepsLanguage_quotedName⟩
    · exact ⟨by decide +kernel, by decide +kernel, by decide +kernel, by decide +kernel⟩
    · exact ⟨by decide +kernel, by decide +kernel⟩
    · intro name hname
      rw [eq_of_isSuppressed hname]
      rfl
    · intro name hname p hp
      rw [eq_of_isSuppressed hname] at hp
      cases hp
      exact ⟨_, rfl, by decide +kernel⟩
  · intro text htext
    rcases List.mem_pair.1 htext with rfl | rfl
    · rw [parse_backslashText]
      refine ⟨onlySplices_suppressing _, ?_, hnone _, not_keepsLanguage_backslash⟩
      exact ⟨by decide +kernel, by decide +kernel, by decide +kernel, by decide +kernel⟩
    · rw [parse_caretText]
      refine ⟨onlySplices_suppressing _, ?_, hnone _, not_keepsLanguage_caret⟩
      exact ⟨by decide +kernel, by decide +kernel, by decide +kernel, by decide +kernel⟩

end CqlGlue.EditorGrammar
