import CqlGlue.Proofs.EditorGrammar.Dangling
import CqlGlue.Proofs.EditorGrammar.KeywordMeanings
import CqlGlue.Proofs.Text.Pieces

/-!
# Rules with something in them

Alternatives are lost on the way to a rule: markers of what may be left out are not alternatives,
text that is no token is passed over, and a reference to a suppressed production without
alternatives is replaced by nothing. A rule with one alternative left is that alternative; all other
rules are printed as a choice, so a production that has lost all of its alternatives is printed as
a choice between nothing. Apart from this, only a blank expression of the configuration leaves a
gap.

## Main definitions
* `Pattern.IsFull` says that sequences and choices have two members or more, none of them blank,
  and `RuleBody.IsFull` says so of what is printed.
* `HasContent` says that a token of a production is left, and that no token stands for a blank
  expression.

## Main statements
* `printsFullRules_iff` says when all rules are full, and `not_printsFullRules_nil` is a listing
  with a rule that is not.
-/

namespace CqlGlue.EditorGrammar

open Text Listing

/-! ## Definitions -/

mutual

/-- Every sequence and every choice in the expression has two members or more, and no part of it is
blank. -/
def Pattern.IsFull : Pattern → Prop
  | .rule _ => True
  | .literal quoted => ¬ AllBlank quoted.toList
  | .caseless _ => True
  | .seq parts => 2 ≤ parts.length ∧ AllFull parts
  | .choice _ alternatives => 2 ≤ alternatives.length ∧ AllFull alternatives
  | .optional body => body.IsFull
  | .left _ body => body.IsFull
  | .foreign text => ¬ AllBlank text.toList

/-- So is every one of several expressions. -/
def AllFull : List Pattern → Prop
  | [] => True
  | p :: ps => p.IsFull ∧ AllFull ps

end

/-- The expression that is printed, without the text it is wrapped in. -/
def RuleBody.expression? : RuleBody → Option Pattern
  | choices alternatives lineBreaks _ => some (choicePattern alternatives lineBreaks)
  | phrase words => some (RuleBody.phrase words).pattern
  | verbatim _ => none

/-- A full expression that is not blank is printed. -/
def RuleBody.IsFull (body : RuleBody) : Prop :=
  ∃ p, body.expression? = some p ∧ p.IsFull ∧ ¬ AllBlank p.text.toList ∧
    p.text.toList <:+: body.text.toList

/-- Every rule that is printed for a production or a helper is full. -/
def PrintsFullRules (config : Config) (g : Grammar) : Prop :=
  ∀ name body, (name, body) ∈ (build config g).rules.entries → config.isDeleted name = false →
    body.IsFull

/-- The production of the name gets a rule that is not left out. -/
def IsPrinted (config : Config) (g : Grammar) (name : String) : Prop :=
  name ∈ (convertedProductions config g).map Prod.fst ∧ config.isDeleted name = false

/-- The token is the name of a suppressed production without alternatives. -/
def Vanishes (config : Config) (g : Grammar) (t : String) : Prop :=
  IsSuppressed config g t ∧ firstChoice g t = []

/-- The token stands for a blank expression of the configuration. -/
def MeansBlank (config : Config) (g : Grammar) (t : String) : Prop :=
  ∃ text, (meaning config g t).symbol = .fixed text ∧ AllBlank text.toList

/-- What a production needs for a rule with something in it. -/
structure HasContent (config : Config) (g : Grammar) (p : Production) : Prop where
  /-- A token is left after splicing. -/
  token : ∃ choice ∈ p.choices, ∃ t ∈ choice, ¬ Vanishes config g t
  /-- No token that is left stands for a blank expression. -/
  visible : ∀ choice ∈ p.choices, ∀ t ∈ spliceTokens (replacements config g) choice,
    ¬ MeansBlank config (splice config g) t

variable {config : Config} {g : Grammar}

/-! ## Expressions -/

theorem allFull_iff {ps : List Pattern} : AllFull ps ↔ ∀ p ∈ ps, p.IsFull := by
  induction ps with
  | nil => simp [AllFull]
  | cons p ps ih => simp [AllFull, ih]

theorem not_allBlank_of_mem {cs : List Char} {c : Char} (hc : c ∈ cs) (h : isBlank c = false) :
    ¬ AllBlank cs :=
  fun hblank => absurd ((hblank c hc).symm.trans h) (by decide)

/-- The printed form of a full expression can be seen. -/
theorem Pattern.IsFull.not_allBlank {p : Pattern} (h : p.IsFull) : ¬ AllBlank p.text.toList := by
  cases p with
  | rule name => exact not_allBlank_of_mem (c := '$') (by simp [Pattern.text]) (by decide)
  | literal quoted => exact h
  | caseless word => exact not_allBlank_of_mem (c := 'C') (by simp [Pattern.text]) (by decide)
  | seq parts => exact not_allBlank_of_mem (c := 's') (by simp [Pattern.text]) (by decide)
  | choice lineBreaks alternatives =>
    exact not_allBlank_of_mem (c := 'c') (by simp [Pattern.text]) (by decide)
  | optional body => exact not_allBlank_of_mem (c := 'o') (by simp [Pattern.text]) (by decide)
  | left level body => exact not_allBlank_of_mem (c := 'p') (by simp [Pattern.text]) (by decide)
  | foreign text => exact h

/-- A lone symbol stands by itself, and other alternatives are sequences. -/
theorem isFull_alternativePattern_iff {symbols : List Symbol} (hne : symbols ≠ []) :
    (alternativePattern symbols).IsFull ↔ ∀ s ∈ symbols, s.pattern.IsFull := by
  rcases symbols with _ | ⟨s, _ | ⟨s', symbols⟩⟩
  · exact absurd rfl hne
  · rw [List.forall_mem_singleton]
    rfl
  · have hlength : 2 ≤ ((s :: s' :: symbols).map Symbol.pattern).length := by simp
    change (_ ∧ AllFull _) ↔ _
    rw [allFull_iff, and_iff_right hlength, List.forall_mem_map]

/-- A choice is full where there is an alternative. -/
theorem isFull_choicePattern_iff {alternatives : List (List Symbol)} {lineBreaks : Bool}
    (hne : ∀ symbols ∈ alternatives, symbols ≠ []) :
    (choicePattern alternatives lineBreaks).IsFull ↔
      alternatives ≠ [] ∧ ∀ symbols ∈ alternatives, ∀ s ∈ symbols, s.pattern.IsFull := by
  have hall : (∀ symbols ∈ alternatives, (alternativePattern symbols).IsFull) ↔
      ∀ symbols ∈ alternatives, ∀ s ∈ symbols, s.pattern.IsFull :=
    forall₂_congr fun symbols hsymbols => isFull_alternativePattern_iff (hne symbols hsymbols)
  rw [← hall]
  rcases alternatives with _ | ⟨a, _ | ⟨a', alternatives⟩⟩
  · change (2 ≤ 0 ∧ _) ↔ _
    simp
  · rw [List.forall_mem_singleton, and_iff_right (List.cons_ne_nil _ _)]
    rfl
  · have hlength : 2 ≤ ((a :: a' :: alternatives).map alternativePattern).length := by simp
    change (_ ∧ AllFull _) ↔ _
    rw [allFull_iff, and_iff_right hlength, and_iff_right (List.cons_ne_nil _ _),
      List.forall_mem_map]

/-- The helper of a keyword of several words is full. -/
theorem isFull_phrase {words : List String} (h : 2 ≤ words.length) :
    (RuleBody.phrase words).pattern.IsFull := by
  change 2 ≤ _ ∧ AllFull _
  rw [allFull_iff, List.forall_mem_map, List.length_map]
  exact ⟨h, fun _ _ => trivial⟩

/-! ## What is printed -/

/-- What is wrapped is still there. -/
theorem infix_wrap {wrapper : Option String} {body : String}
    (h : ∀ w ∈ wrapper, ['\x7b', '\x7d'] <:+: w.toList) :
    body.toList <:+: (wrap wrapper body).toList := by
  cases wrapper with
  | none => exact List.infix_refl _
  | some w =>
    rw [wrap, String.toList_ofList, replaceFirst]
    split
    · rename_i before after _
      exact ⟨before, after, rfl⟩
    · rename_i hnone
      exact absurd (h w rfl) (splitFirst_eq_none_iff.1 hnone)

theorem isFull_choices_iff {alternatives : List (List Symbol)} {lineBreaks : Bool}
    {wrapper : Option String} (h : ∀ w ∈ wrapper, ['\x7b', '\x7d'] <:+: w.toList) :
    (RuleBody.choices alternatives lineBreaks wrapper).IsFull ↔
      (choicePattern alternatives lineBreaks).IsFull := by
  constructor
  · rintro ⟨p, hp, hfull, -⟩
    cases hp
    exact hfull
  · intro hfull
    refine ⟨_, rfl, hfull, hfull.not_allBlank, ?_⟩
    rw [text_choicePattern]
    change _ <:+: ("$ => " ++ wrap wrapper (choiceText alternatives lineBreaks)).toList
    rw [String.toList_append]
    exact (infix_wrap h).trans (List.suffix_append _ _).isInfix

theorem isFull_phraseBody {words : List String} (h : 2 ≤ words.length) :
    (RuleBody.phrase words).IsFull := by
  have hfull := isFull_phrase h
  refine ⟨_, rfl, hfull, hfull.not_allBlank, ?_⟩
  rw [RuleBody.text_phrase, String.toList_append]
  exact (List.suffix_append _ _).isInfix

/-! ## Tokens -/

/-- What stands for itself has a quote in it. -/
theorem not_allBlank_of_literal {token text : String}
    (h : (reference config g token).symbol = .literal text) : ¬ AllBlank text.toList := by
  have hvisible : ['\'', '"'].all (!isBlank ·) = true := by decide
  obtain ⟨rfl, mark, hmark, hmem⟩ := eq_of_literal_reference h
  exact not_allBlank_of_mem hmem (by simpa using List.all_eq_true.1 hvisible mark hmark)

/-- The symbol of a token is blank only as an expression of the configuration. -/
theorem isFull_symbol_iff {t : String} :
    (meaning config g t).symbol.pattern.IsFull ↔ ¬ MeansBlank config g t := by
  cases hsymbol : (meaning config g t).symbol with
  | literal text =>
    refine iff_of_true ?_ ?_
    · obtain ⟨token, htoken⟩ := exists_symbol_meaning_eq config g t
      exact not_allBlank_of_literal (htoken.symm.trans hsymbol)
    · rintro ⟨_, h, -⟩
      cases hsymbol.symm.trans h
  | rule name =>
    refine iff_of_true trivial ?_
    rintro ⟨_, h, -⟩
    cases hsymbol.symm.trans h
  | optionalRule name =>
    refine iff_of_true trivial ?_
    rintro ⟨_, h, -⟩
    cases hsymbol.symm.trans h
  | fixed text =>
    constructor
    · rintro hfull ⟨_, h, hblank⟩
      cases hsymbol.symm.trans h
      exact hfull hblank
    · intro hvisible hblank
      exact hvisible ⟨text, hsymbol, hblank⟩

/-! ## Productions -/

/-- A token is replaced by nothing exactly if it vanishes. -/
theorem lookup_replacements_eq_nil_iff {t : String} :
    (replacements config g).lookup t = some [] ↔ Vanishes config g t := by
  rw [Vanishes, ← isRemoved_iff]
  constructor
  · intro h
    have hremoved : IsRemoved config g t := by
      rw [isRemoved_iff]
      by_contra hkept
      rw [lookup_replacements_eq_none_iff.2 hkept] at h
      cases h
    rw [lookup_replacements_of_isRemoved hremoved] at h
    exact ⟨hremoved, Option.some.inj h⟩
  · rintro ⟨hremoved, hnil⟩
    rw [lookup_replacements_of_isRemoved hremoved, hnil]

/-- Nothing is left of an alternative when all of its tokens vanish. -/
theorem spliceTokens_eq_nil_iff {ts : List String} :
    spliceTokens (replacements config g) ts = [] ↔ ∀ t ∈ ts, Vanishes config g t := by
  rw [spliceTokens, List.flatMap_eq_nil_iff]
  refine forall₂_congr fun t _ => ?_
  rw [← lookup_replacements_eq_nil_iff]
  cases (replacements config g).lookup t with
  | none => simp
  | some c => simp

/-- The rule of a production is full exactly if the production has content. -/
theorem isFull_productionBody_iff {name : String} {p : Production}
    (hwrapper : ∀ w ∈ config.precedence.values, ['\x7b', '\x7d'] <:+: w.toList)
    (hshape : ∀ choice ∈ (spliceProduction (replacements config g) p).choices, ∀ t ∈ choice,
      Shape t.toList) :
    (productionBody config (splice config g) name
        (spliceProduction (replacements config g) p)).IsFull ↔ HasContent config g p := by
  have hnonempty : ∀ symbols ∈ ((spliceProduction (replacements config g) p).choices.filter
      (!·.isEmpty)).map (·.map fun t => (meaning config (splice config g) t).symbol),
      symbols ≠ [] := by
    intro symbols hsymbols
    obtain ⟨choice, hchoice, rfl⟩ := List.mem_map.1 hsymbols
    simpa using (List.mem_filter.1 hchoice).2
  rw [productionBody_of_shapes hshape,
    isFull_choices_iff fun w hw => hwrapper w (Table.mem_values_of_get? hw),
    isFull_choicePattern_iff hnonempty]
  constructor
  · rintro ⟨hne, hfull⟩
    constructor
    · obtain ⟨symbols, hsymbols⟩ := List.exists_mem_of_ne_nil _ hne
      obtain ⟨spliced, hspliced, rfl⟩ := List.mem_map.1 hsymbols
      obtain ⟨choice, hchoice, rfl⟩ := List.mem_map.1 (List.mem_filter.1 hspliced).1
      by_contra! hnone
      rw [spliceTokens_eq_nil_iff.2 (hnone choice hchoice)] at hsymbols
      exact hnonempty _ hsymbols rfl
    · intro choice hchoice t ht
      refine isFull_symbol_iff.1 (hfull _ (List.mem_map_of_mem (List.mem_filter.2
        ⟨List.mem_map_of_mem hchoice, ?_⟩)) _ (List.mem_map_of_mem ht))
      simpa using List.ne_nil_of_mem ht
  · rintro ⟨⟨choice, hchoice, t, ht, hkept⟩, hvisible⟩
    constructor
    · intro hnil
      rw [List.map_eq_nil_iff, List.filter_eq_nil_iff] at hnil
      have hempty : spliceTokens (replacements config g) choice = [] := by
        simpa using hnil _ (List.mem_map_of_mem hchoice)
      exact hkept (spliceTokens_eq_nil_iff.1 hempty t ht)
    · intro symbols hsymbols s hs
      obtain ⟨spliced, hspliced, rfl⟩ := List.mem_map.1 hsymbols
      obtain ⟨t, ht, rfl⟩ := List.mem_map.1 hs
      obtain ⟨choice, hchoice, rfl⟩ := List.mem_map.1 (List.mem_filter.1 hspliced).1
      exact isFull_symbol_iff.2 (hvisible choice hchoice t ht)

/-- A keyword of several words has two of them or more. -/
theorem two_le_length_phraseWords {cs : List Char} (hshape : Shape cs)
    (hblank : cs.any isBlank = true) : 2 ≤ (phraseWords cs).length := by
  rw [phraseWords, List.length_map]
  apply two_le_length_splitBlanks
  rcases quoted_or_single_of_any_isBlank hshape hblank with hquoted | ⟨c, rfl, hc⟩
  · obtain ⟨body, rfl, -, hquote⟩ := exists_body_of_isQuoted hshape hquoted
    rwa [unquote_quoted hquote, ← any_isBlank_quoted '"' (by decide)]
  · simpa [unquote] using hblank

/-- All rules are full if and only if every production with a rule has content: a token of it is
left, and none stands for a blank expression. -/
theorem printsFullRules_iff (config : Config) (text : String)
    (hoverrides : config.ruleOverrides.entries = [])
    (hwrapper : ∀ w ∈ config.precedence.values, ['\x7b', '\x7d'] <:+: w.toList) :
    PrintsFullRules config (Grammar.parse text) ↔
      ∀ name p, (Grammar.parse text).get? name = some p →
        IsPrinted config (Grammar.parse text) name → HasContent config (Grammar.parse text) p := by
  have hshaped : ∀ name p, (Grammar.parse text).get? name = some p → Shaped p.choices :=
    fun _ _ hp => shaped_parse hp
  generalize Grammar.parse text = g at hshaped
  have hshape : ∀ name p, (splice config g).get? name = some p →
      ∀ choice ∈ p.choices, ∀ t ∈ choice, Shape t.toList :=
    fun name p hp choice hchoice t ht => shape_of_mem_mentioned hshaped
      (mem_mentioned_of_splice (mem_mentioned_of_mem_choice hp hchoice ht))
  rw [PrintsFullRules, build_eq hoverrides]
  constructor
  · rintro h name p hp ⟨hconverted, hkept⟩
    obtain ⟨⟨_, spliced⟩, he, rfl⟩ := List.mem_map.1 hconverted
    have hspliced := get?_of_mem_convertedProductions he
    obtain ⟨-, q, hq, rfl⟩ := get?_splice.1 hspliced
    obtain rfl : p = q := Option.some.inj (hp.symm.trans hq)
    exact (isFull_productionBody_iff hwrapper (hshape _ _ hspliced)).1
      (h _ _ (mem_rules_of_mem_convertedProductions he) hkept)
  · intro h name body hrule hkept
    rcases mem_rules_buildRules hrule with ⟨spliced, he, rfl⟩ | ⟨-, m, hm, words, hphrase, rfl⟩
    · have hspliced := get?_of_mem_convertedProductions he
      obtain ⟨-, p, hp, rfl⟩ := get?_splice.1 hspliced
      exact (isFull_productionBody_iff hwrapper (hshape _ _ hspliced)).2
        (h name p hp ⟨List.mem_map_of_mem he, hkept⟩)
    · obtain ⟨t, ht, rfl⟩ := (mem_convertedMeanings_iff_isUsed hshaped).1 hm
      obtain ⟨hblank, rfl, -⟩ := words_of_phrase_meaning hphrase
      exact isFull_phraseBody (two_le_length_phraseWords (ht.shape_of_shaped hshaped) hblank)

/-- A listing with a production of which only the marker of what may be left out is known. -/
def nilText : String := "r ::= a opt\nopt ::= /* nil */\n"

/-- What is read from it. -/
def nilListing : Grammar where
  entries := [("r", ⟨[["a", "opt"]], false⟩), ("opt", ⟨[], true⟩)]
  distinct := by decide

theorem parse_nilText : Grammar.parse nilText = nilListing :=
  Table.eq_of_entries_eq (by decide +kernel)

/-- The rule of `opt` is a choice between nothing. -/
theorem not_printsFullRules_nil :
    (suppressing []).ruleOverrides.entries = [] ∧
      (∀ w ∈ (suppressing []).precedence.values, ['\x7b', '\x7d'] <:+: w.toList) ∧
      generatedRules (suppressing []) (build (suppressing []) (Grammar.parse nilText)) =
        [("r", "$ => seq($.a, optional($.opt))"), ("opt", "$ => choice()")] ∧
      ¬ PrintsFullRules (suppressing []) (Grammar.parse nilText) := by
  have hwrapper : ∀ w ∈ (suppressing []).precedence.values,
      ['\x7b', '\x7d'] <:+: w.toList := nofun
  refine ⟨rfl, hwrapper, ?_, fun h => ?_⟩
  · rw [parse_nilText]
    decide +kernel
  · rw [printsFullRules_iff (suppressing []) nilText rfl hwrapper, parse_nilText] at h
    obtain ⟨⟨choice, hchoice, -⟩, -⟩ := h "opt" ⟨[], true⟩ (by decide +kernel)
      ⟨by decide +kernel, by decide +kernel⟩
    exact absurd hchoice List.not_mem_nil

end CqlGlue.EditorGrammar
