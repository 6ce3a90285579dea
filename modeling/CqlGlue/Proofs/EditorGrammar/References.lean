import CqlGlue.Proofs.EditorGrammar.RuleNames
import CqlGlue.Proofs.EditorGrammar.Tokens

/-!
# The generated rules are closed

A rule refers to others by name before these are defined, a name may be taken without a rule of
its own, and rules may be left out when they are printed. Still, every name that a rule refers
to is defined in the generated file, or it is one of those that the configuration says are defined
by hand. What a reference needs is that the listing defines what it mentions.

## Main definitions
* `Draft.references` are the names that the rules of a draft refer to.
* `Resolvable` is what a listing must satisfy for its references to be resolved.

## Main statements
* `referred_meaning` says which name the symbol of a token refers to.
* `mem_generatedRules_of_mem_references` says that every reference is resolved.
-/

namespace CqlGlue.EditorGrammar

open Text Listing

/-! ## References -/

/-- The name that a symbol refers to. Expressions of the configuration are not looked into. -/
def Symbol.referred? : Symbol → Option String
  | rule name => some name
  | optionalRule name => some name
  | literal _ => none
  | fixed _ => none

theorem Symbol.text_of_referred? {s : Symbol} {name : String} (h : s.referred? = some name) :
    s.text = "$." ++ name ∨ s.text = "optional($." ++ name ++ ")" := by
  cases s with
  | literal text => cases h
  | rule other =>
    cases h
    exact .inl rfl
  | optionalRule other =>
    cases h
    exact .inr rfl
  | fixed text => cases h

/-- The names that tokens are converted to in a body. -/
def RuleBody.references : RuleBody → List String
  | choices alternatives _ _ => alternatives.flatten.filterMap Symbol.referred?
  | phrase _ => []
  | verbatim _ => []

/-- The names that the rules of a draft refer to. -/
def Draft.references (d : Draft) : List String := d.rules.values.flatMap RuleBody.references

theorem Draft.mem_references {d : Draft} {name : String} :
    name ∈ d.references ↔ ∃ e ∈ d.rules.entries, name ∈ e.2.references := by
  simp only [references, Table.values, List.mem_flatMap, List.mem_map]
  constructor
  · rintro ⟨_, ⟨e, he, rfl⟩, hname⟩
    exact ⟨e, he, hname⟩
  · rintro ⟨e, he, hname⟩
    exact ⟨e.2, ⟨e, he, rfl⟩, hname⟩

variable {config : Config} {g : Grammar}

/-- The alternatives in the rule of a production. -/
def productionSymbols (config : Config) (g : Grammar) (p : Production) : List (List Symbol) :=
  ((p.choices.map (meanings config g)).map (·.map Meaning.symbol)).filter (!·.isEmpty)

/-- The symbols in the rule of a production are what its tokens mean. -/
theorem exists_of_mem_productionSymbols {s : Symbol} {p : Production}
    (h : s ∈ (productionSymbols config g p).flatten) :
    ∃ m ∈ productionMeanings config g p, m.symbol = s := by
  obtain ⟨symbols, hsymbols, hs⟩ := List.mem_flatten.1 h
  obtain ⟨ms, hms, rfl⟩ := List.mem_map.1 (List.mem_filter.1 hsymbols).1
  obtain ⟨m, hm, rfl⟩ := List.mem_map.1 hs
  exact ⟨m, List.mem_flatten.2 ⟨ms, hms, hm⟩, rfl⟩

/-- The rule of a production refers to what its tokens mean. -/
theorem exists_of_mem_references_productionBody {rule name : String} {p : Production}
    (h : name ∈ (productionBody config g rule p).references) :
    ∃ m ∈ productionMeanings config g p, m.symbol.referred? = some name := by
  obtain ⟨s, hs, hname⟩ := List.mem_filterMap.1 h
  obtain ⟨m, hm, rfl⟩ := exists_of_mem_productionSymbols hs
  exact ⟨m, hm, hname⟩

/-- A rule refers to what the tokens of a production with a rule mean. -/
theorem exists_of_mem_references {name : String} (h : name ∈ (buildRules config g).references) :
    ∃ m ∈ convertedMeanings config g, m.symbol.referred? = some name := by
  obtain ⟨⟨rule, body⟩, hrule, hname⟩ := Draft.mem_references.1 h
  rcases mem_rules_buildRules hrule with ⟨p, hp, rfl⟩ | ⟨-, -, -, words, -, rfl⟩
  · obtain ⟨m, hm, hreferred⟩ := exists_of_mem_references_productionBody hname
    exact ⟨m, mem_convertedMeanings.2 ⟨_, hp, hm⟩, hreferred⟩
  · exact absurd hname List.not_mem_nil

/-! ## What a token refers to -/

/-- A token that is neither renamed nor quoted nor replaced by an expression. -/
structure IsBareReference (config : Config) (token : String) : Prop where
  renames : token ∉ config.renames.keys
  overrides : token ∉ config.referenceOverrides.keys
  punctuation : isPunctuation token.toList = false
  quoted : isQuoted token.toList = false

/-- A reference is to the target of a rename, to a keyword, or to the token itself. -/
theorem referred_reference {token name : String}
    (h : (reference config g token).symbol.referred? = some name) :
    name ∈ config.renames.values ∨
      (∃ word, (reference config g token).keyword = some (name, word)) ∨
      name = token ∧ IsBareReference config token := by
  have hcase := referenceCase config g token
  generalize reference config g token = m at hcase h ⊢
  cases hcase with
  | renamed htarget =>
    cases h
    exact .inl (Table.mem_values_of_get? htarget)
  | literal _ => cases h
  | renamedWord htarget =>
    cases h
    exact .inl (Table.mem_values_of_get? htarget)
  | keyword _ =>
    cases h
    exact .inr (.inl ⟨_, rfl⟩)
  | override _ => cases h
  | bare hrenames hoverrides hpunctuation hquoted =>
    refine .inr (.inr ⟨?_, hrenames, hoverrides, hpunctuation, hquoted⟩)
    dsimp only at h
    split at h <;> exact (Option.some.inj h).symm

/-- Besides, a token with a blank inside refers to its helper. -/
theorem referred_meaning {token name : String}
    (h : (meaning config g token).symbol.referred? = some name) :
    name ∈ config.renames.values ∨
      (∃ word, (meaning config g token).keyword = some (name, word)) ∨
      (∃ words, (meaning config g token).phrase = some (name, words)) ∨
      name = token ∧ IsBareReference config token := by
  generalize hm : meaning config g token = m at h ⊢
  unfold meaning at hm
  split at hm
  · subst hm
    rcases referred_reference h with hrename | hkeyword | ⟨rfl, -⟩
    · exact .inl hrename
    · exact .inr (.inl hkeyword)
    · exact .inr (.inr (.inl ⟨_, rfl⟩))
  · subst hm
    rcases referred_reference h with hrename | hkeyword | hbare
    · exact .inl hrename
    · exact .inr (.inl hkeyword)
    · exact .inr (.inr (.inr hbare))

/-! ## Listings whose references are resolved -/

/-- A token in single quotes holds one character other than a quote or a blank. -/
def HoldsOneMark (token : String) : Bool :=
  match token.toList with
  | ['\'', c, '\''] => c != '\'' && !isBlank c
  | '\'' :: _ => false
  | _ => true

/-- A listing as it is read from a text, where in the productions left after splicing a bare token
is defined, renamed or replaced by an expression, a token in single quotes holds one mark, and no
keyword of several words has the name of a suppressed production for its helper. What is spliced in
mentions no suppressed production. -/
structure Resolvable (config : Config) (g : Grammar) : Prop where
  shaped : ∀ name p, g.get? name = some p → Shaped p.choices
  bare : ∀ t ∈ mentioned (splice config g), terminals? t = none →
    t ∈ g.keys ∨ t ∈ config.renames.keys ∨ t ∈ config.referenceOverrides.keys
  marks : ∀ t ∈ mentioned (splice config g), HoldsOneMark t = true
  phrases : ∀ t ∈ mentioned (splice config g), t.toList.any isBlank = true →
    ¬ IsSuppressed config g (phraseName (phraseWords t.toList))
  first : ∀ name p, IsSuppressed config g name → g.get? name = some p →
    ∀ t ∈ p.choices.head?.getD [], ¬ IsSuppressed config g t

/-- A token that refers to itself has no quotes around it. -/
theorem IsBareReference.terminals?_eq_none {token : String} (h : IsBareReference config token)
    (hshape : Shape token.toList) (hmark : HoldsOneMark token = true) :
    terminals? token = none := by
  have hpunctuation := h.punctuation
  have hquoted := h.quoted
  generalize htoken : token.toList = cs at hshape hpunctuation hquoted
  rw [HoldsOneMark, htoken] at hmark
  cases hshape with
  | double hne hquote =>
    rw [isQuoted_quoted hne hquote] at hquoted
    cases hquoted
  | single c =>
    simp only [Bool.and_eq_true, bne_iff_ne] at hmark
    simp [isPunctuation, startsEnclosed, hmark.1] at hpunctuation
  | pair => exact absurd hmark (by decide)
  | bare _ hbare =>
    subst htoken
    exact terminals?_bare hbare

namespace Resolvable

variable (h : Resolvable config g)
include h

/-- After splicing no production mentions a suppressed one. -/
theorem not_isSuppressed {t : String} (ht : t ∈ mentioned (splice config g)) :
    ¬ IsSuppressed config g t := by
  obtain ⟨name, p, hp, choice, hchoice, htc⟩ := mem_mentioned.1 ht
  obtain ⟨-, q, -, rfl⟩ := get?_splice.1 hp
  obtain ⟨c, -, rfl⟩ := List.mem_map.1 hchoice
  exact not_isSuppressed_of_mem_spliceTokens h.first htc

/-- The meanings of productions with rules are those of tokens. -/
theorem exists_token {m : Meaning} (hm : m ∈ convertedMeanings config g) :
    ∃ t ∈ mentioned (splice config g), Shape t.toList ∧
      meaning config (splice config g) t = m := by
  obtain ⟨e, he, hm⟩ := mem_convertedMeanings.1 hm
  obtain ⟨choice, hchoice, t, htc, -, rfl⟩ := mem_productionMeanings.1 hm
  have ht := mem_mentioned_of_mem_choice (get?_of_mem_convertedProductions he) hchoice htc
  have hshape := shape_of_mem_mentioned h.shaped (mem_mentioned_of_splice ht)
  exact ⟨t, ht, hshape, by rw [hshape.solid.trimmed_eq]⟩

/-- What the meaning of a token refers to is renamed, or it is the name of a production, a helper
or a keyword. -/
theorem resolves {m : Meaning} (hm : m ∈ convertedMeanings config g) {name : String}
    (hname : m.symbol.referred? = some name) :
    name ∈ config.renames.values ∨ IsDefined config g name ∨ name ∈ keywordNames config g := by
  obtain ⟨t, ht, hshape, rfl⟩ := h.exists_token hm
  rcases referred_meaning hname
    with hrename | ⟨word, hkeyword⟩ | ⟨words, hphrase⟩ | ⟨rfl, hbare⟩
  · exact .inl hrename
  · exact .inr (.inr (mem_keywordNames.2 ⟨_, hm, word, hkeyword⟩))
  · have hkept : ¬ IsSuppressed config g name := by
      obtain ⟨hblank, hjoined⟩ := phrase_meaning hphrase
      exact hjoined ▸ h.phrases t ht hblank
    exact .inr (.inl ⟨hkept, .inr (mem_helperNames.2 ⟨_, hm, words, hphrase⟩)⟩)
  · rcases h.bare name ht (hbare.terminals?_eq_none hshape (h.marks name ht))
      with hkey | hkey | hkey
    · exact .inr (.inl ⟨h.not_isSuppressed ht, .inl hkey⟩)
    · exact absurd hkey hbare.renames
    · exact absurd hkey hbare.overrides

end Resolvable

/-- Every name that a rule refers to is the name of a generated definition, the target of a
rename, or a name that is never printed. -/
theorem mem_generatedRules_of_mem_references (hoverrides : config.ruleOverrides.entries = [])
    (h : Resolvable config g) {name : String} (hname : name ∈ (build config g).references) :
    name ∈ (generatedRules config (build config g)).map Prod.fst ∨
      name ∈ config.renames.values ∨ config.isDeleted name = true := by
  rw [build_eq hoverrides] at hname
  obtain ⟨m, hm, hreferred⟩ := exists_of_mem_references hname
  rw [mem_map_fst_generatedRules]
  rcases h.resolves hm hreferred with hrename | hdefined | hkeyword
  · exact .inr (.inl hrename)
  · cases hdeleted : config.isDeleted name with
    | true => exact .inr (.inr rfl)
    | false => exact .inl (.inl ⟨hdefined, rfl⟩)
  · exact .inl (.inr hkeyword)

/-! ## A listing with references of all kinds -/

/-- Tables that suppress `cond`, delete `block`, rename `ID` and replace `opt_list`. -/
def mixedConfig : Config :=
  { suppressing ["cond"] with
    renames := Table.ofList [("ID", "IDENT")]
    deleted := NameSet.ofList ["block"]
    referenceOverrides := Table.ofList [("opt_list", "optional($.list)")] }

/-- A listing in which `cond` is spliced, the helper of a keyword has the name of a production,
and `block` is used before its definition. -/
def mixedText : String :=
  "stmt ::= \"IF NOT\" cond block | IF_NOT opt_list\ncond ::= '(' ID | block\n" ++
    "IF_NOT ::= \"a\" stmt\nblock ::= /* nil */\n"

/-- What is read from it. -/
def mixed : Grammar where
  entries := [("stmt", ⟨[["\"IF NOT\"", "cond", "block"], ["IF_NOT", "opt_list"]], false⟩),
    ("cond", ⟨[["'('", "ID"], ["block"]], false⟩), ("IF_NOT", ⟨[["\"a\"", "stmt"]], false⟩),
    ("block", ⟨[], true⟩)]
  distinct := by decide

theorem parse_mixedText : Grammar.parse mixedText = mixed :=
  Table.eq_of_entries_eq (by decide +kernel)

theorem isDeleted_block_of_mem_references :
    mixedConfig.ruleOverrides.entries = [] ∧ Resolvable mixedConfig (Grammar.parse mixedText) ∧
      "block" ∈ (build mixedConfig (Grammar.parse mixedText)).references ∧
      ("block" ∈ (generatedRules mixedConfig
          (build mixedConfig (Grammar.parse mixedText))).map Prod.fst ∨
        "block" ∈ mixedConfig.renames.values ∨ mixedConfig.isDeleted "block" = true) := by
  have hresolvable : Resolvable mixedConfig (Grammar.parse mixedText) := by
    refine ⟨fun _ _ hp => shaped_parse hp, ?_, ?_, ?_, ?_⟩
    · rw [parse_mixedText]
      decide +kernel
    · rw [parse_mixedText]
      decide +kernel
    · rw [parse_mixedText]
      decide +kernel
    · rw [parse_mixedText]
      have hfirst : ∀ e ∈ mixed.entries, IsSuppressed mixedConfig mixed e.1 →
          ∀ t ∈ e.2.choices.head?.getD [], ¬ IsSuppressed mixedConfig mixed t := by decide +kernel
      intro name p hname hp
      exact hfirst (name, p) (Table.get?_eq_some_iff.1 hp) hname
  have hname : "block" ∈ (build mixedConfig (Grammar.parse mixedText)).references := by
    rw [parse_mixedText]
    decide +kernel
  exact ⟨rfl, hresolvable, hname, mem_generatedRules_of_mem_references rfl hresolvable hname⟩

end CqlGlue.EditorGrammar
