import CqlGlue.Proofs.EditorGrammar.RuleNames
import CqlGlue.Proofs.EditorGrammar.Tokens
import CqlGlue.Proofs.Listing.Places
import CqlGlue.Proofs.Listing.Written
import Mathlib.Data.List.TakeWhile

/-!
# Renamed symbols

The table of renames gives symbols of a listing, which it never defines, the names of rules that
are written by hand. It is looked up with tokens. A symbol that stands by itself in an alternative
is a reference to the target of its rename, at its place in the rule, if the symbol is a token. One
that is no token is never looked up, and two of the symbols of CQL are none: `ID!`, because reading
passes over the mark, and the quoted identifier, because it passes over the quotes.

## Main definitions
* `RenamedPlace` is a place of a listing where a symbol stands that is renamed.
* `RenamedPlace.IsHonoured` says that the rule refers to the target at the place.

## Main statements
* `isHonoured_iff_token`: a rename is honoured at all places if and only if it is of a token.
* `not_isHonoured_idBang`: the rename of `ID!` is not.
-/

namespace CqlGlue.EditorGrammar

open Text Listing

variable {config : Config} {g : Grammar} {name : String}

/-! ## What becomes of tokens -/

/-- The symbols that tokens of a listing come to in a rule. -/
def symbolsOf (config : Config) (g : Grammar) (ts : List String) : List Symbol :=
  (meanings config (splice config g) (spliceTokens (replacements config g) ts)).map Meaning.symbol

theorem meanings_append (config : Config) (g : Grammar) (ts us : List String) :
    meanings config g (ts ++ us) = meanings config g ts ++ meanings config g us := by
  rw [meanings, List.map_append, List.filter_append, List.map_append, ← meanings, ← meanings]

theorem symbolsOf_append (config : Config) (g : Grammar) (ts us : List String) :
    symbolsOf config g (ts ++ us) = symbolsOf config g ts ++ symbolsOf config g us := by
  rw [symbolsOf, spliceTokens_append, meanings_append, List.map_append, ← symbolsOf, ← symbolsOf]

/-- A token is visible: it has no blanks at its ends. -/
theorem meanings_cons {t : String} (h : Solid t.toList) (ts : List String) :
    meanings config g (t :: ts) = meaning config g t :: meanings config g ts := by
  rw [meanings, List.map_cons, h.trimmed_eq, List.filter_cons_of_pos (by simpa using h.ne_empty),
    List.map_cons, ← meanings]

theorem symbolsOf_cons {t : String} (hkept : ¬ IsSuppressed config g t) (h : Solid t.toList)
    (ts : List String) :
    symbolsOf config g (t :: ts) =
      (meaning config (splice config g) t).symbol :: symbolsOf config g ts := by
  rw [symbolsOf, spliceTokens_cons_none (lookup_replacements_eq_none_iff.2 hkept),
    meanings_cons h, List.map_cons, ← symbolsOf]

theorem any_isBlank_eq_false_iff {cs : List Char} :
    cs.any isBlank = false ↔ ∀ c ∈ cs, isBlank c = false := by
  simp

/-- A token without blanks stands for the target of its rename. -/
theorem meaning_of_rename {t target : String} (hblank : ∀ c ∈ t.toList, isBlank c = false)
    (h : config.renames.get? t = some target) :
    meaning config g t = ⟨.rule target, none, none⟩ := by
  rw [meaning, any_isBlank_eq_false_iff.2 hblank, if_neg Bool.false_ne_true, reference, h]

/-! ## Rules of productions -/

/-- A definition of the configuration changes no other rule. -/
theorem get?_rules_override (h : name ∉ config.ruleOverrides.keys) (d : Draft) :
    (d.override config).rules.get? name = d.rules.get? name := by
  have hfold : ∀ overrides : List (String × String), (∀ o ∈ overrides, o.1 ≠ name) →
      ∀ rules : Table RuleBody, (overrides.foldl (fun rules o =>
        if rules.contains o.1 then rules.insert o.1 (.verbatim o.2) else rules) rules).get? name =
          rules.get? name := by
    intro overrides hne
    induction overrides with
    | nil => exact fun _ => rfl
    | cons o overrides ih =>
      intro rules
      rw [List.foldl_cons, ih fun o' ho' => hne o' (List.mem_cons_of_mem o ho')]
      split
      · rw [Table.get?_insert, if_neg (hne o List.mem_cons_self).symm]
      · rfl
  refine hfold _ (fun o ho heq => h ?_) d.rules
  exact heq ▸ List.mem_map_of_mem ho

/-- A production that is not suppressed has its rule, unless a helper has taken the name. -/
theorem mem_rules_of_get? {p : Production} (hkept : ¬ IsSuppressed config g name)
    (hp : g.get? name = some p) (hhelper : name ∉ helperNames config g) :
    (name, productionBody config (splice config g) name
      (spliceProduction (replacements config g) p)) ∈ (buildRules config g).rules.entries := by
  have hspliced : (splice config g).get? name =
      some (spliceProduction (replacements config g) p) := get?_splice.2 ⟨hkept, p, hp, rfl⟩
  obtain ⟨body, hbody⟩ := Table.mem_keys_iff.1 (mem_keys_buildRules hspliced)
  obtain ⟨q, hq, rfl⟩ | ⟨-, m, hm, words, hphrase, -⟩ := mem_rules_buildRules hbody
  · have heq := (get?_of_mem_convertedProductions hq).symm.trans hspliced
    cases heq
    exact hbody
  · exact absurd (mem_helperNames.2 ⟨m, hm, words, hphrase⟩) hhelper

/-! ## Renamed places -/

/-- A place where a symbol stands by itself that the configuration renames, in a production that
has a rule: it is not suppressed, deleted or overridden, and no helper has its name. -/
structure RenamedPlace (config : Config) (text key target : String) extends Place text key where
  rename : config.renames.get? key = some target
  keyKept : ¬ IsSuppressed config (Grammar.parse text) key
  kept : ¬ IsSuppressed config (Grammar.parse text) name
  notDeleted : config.isDeleted name = false
  notOverridden : name ∉ config.ruleOverrides.keys
  noHelper : name ∉ helperNames config (Grammar.parse text)

namespace RenamedPlace

variable {text key target : String}

/-- The rule of the production refers to the target, between what the tokens before and behind the
place come to. -/
def IsHonoured (place : RenamedPlace config text key target) : Prop :=
  ∃ alternatives lineBreaks wrapper,
    let body := RuleBody.choices alternatives lineBreaks wrapper
    let g := Grammar.parse text
    (place.name, body) ∈ (build config g).rules.entries ∧
      (place.name, body.text) ∈ generatedRules config (build config g) ∧
      symbolsOf config g (place.read.map String.ofList) ++ .rule target ::
        symbolsOf config g ((tokens place.after).map String.ofList) ∈ alternatives

theorem isHonoured_of_token? (place : RenamedPlace config text key target)
    (hblank : ∀ c ∈ key.toList, isBlank c = false)
    (h : token? key.toList = some key.toList) : place.IsHonoured := by
  obtain ⟨p, hp, hchoice⟩ := place.exists_choice h
  have hrule := mem_rules_of_get? place.kept hp place.noHelper
  have hbuild : (place.name, productionBody config (splice config (Grammar.parse text)) place.name
      (spliceProduction (replacements config (Grammar.parse text)) p)) ∈
        (build config (Grammar.parse text)).rules.entries := by
    rw [← Table.get?_eq_some_iff, build, get?_rules_override place.notOverridden,
      Table.get?_eq_some_iff]
    exact hrule
  refine ⟨_, _, _, hbuild, ?_, ?_⟩
  · refine List.mem_append_left _ (Table.mem_entries_map.2 ⟨_, Table.mem_entries_filter.2
      ⟨hbuild, by rw [place.notDeleted]; rfl⟩, rfl⟩)
  · have hsymbols := symbolsOf_append config (Grammar.parse text) (place.read.map String.ofList)
      (key :: (tokens place.after).map String.ofList)
    rw [symbolsOf_cons place.keyKept (shape_of_token? h).solid,
      meaning_of_rename hblank place.rename] at hsymbols
    rw [← hsymbols]
    refine List.mem_filter.2 ⟨List.mem_map.2 ⟨_, List.mem_map.2 ⟨_, List.mem_map.2
      ⟨_, hchoice, rfl⟩, rfl⟩, rfl⟩, ?_⟩
    rw [hsymbols]
    simp

end RenamedPlace

/-! ## A listing for every symbol -/

/-- A listing with one alternative, which ends in a symbol. -/
def aloneText (symbol : String) : String := "r\n::= x " ++ symbol

/-- What is read from it. -/
def alone (symbol : String) : Grammar where
  entries := [("r", ⟨["x" :: (tokens symbol.toList).map String.ofList], false⟩)]
  distinct := by simp

/-- The tables that rename one symbol, to a name that nothing else has. -/
def renamingAway (key : String) : Config :=
  { suppressing [] with renames := ⟨[(key, "")], by simp⟩ }

section Alone

variable {symbol : String} (hblank : ∀ c ∈ symbol.toList, isBlank c = false)
include hblank

theorem definitions_aloneText :
    definitions (aloneText symbol).toList = [(['r'], 'x' :: ' ' :: symbol.toList)] := by
  have htext : (aloneText symbol).toList = 'r' :: '\n' :: ':' :: ':' :: '=' :: ' ' :: 'x' :: ' ' ::
      symbol.toList := by
    rw [aloneText, String.toList_append]
    rfl
  have hsplit : splitDefinition (aloneText symbol).toList =
      some (['r'], ' ' :: 'x' :: ' ' :: symbol.toList) := by
    rw [htext]
    rfl
  have htrim : trimLeft (' ' :: 'x' :: ' ' :: symbol.toList) = 'x' :: ' ' :: symbol.toList := rfl
  have hline : ∀ c ∈ 'x' :: ' ' :: symbol.toList, (c != '\n') = true := by
    intro c hc
    rw [bne_iff_ne]
    rintro rfl
    simp only [List.mem_cons] at hc
    obtain h | h | h := hc
    · cases h
    · cases h
    · exact absurd (hblank _ h) (by decide)
  have hrest : definitions [] = [] := by
    unfold definitions
    rfl
  rw [definitions_of_some hsplit, htrim, lineOf, afterLine, List.takeWhile_eq_self_iff.2 hline,
    List.dropWhile_eq_nil_iff.2 hline, hrest]

theorem alternatives_alone :
    alternatives ('x' :: ' ' :: symbol.toList) = ['x' :: ' ' :: symbol.toList] := by
  have hpiece : alternatives symbol.toList = [symbol.toList] := by
    generalize symbol.toList = cs at hblank
    induction cs with
    | nil => exact alternatives_nil
    | cons c cs ih =>
      refine alternatives_cons_none ?_ (ih fun d hd => hblank d (List.mem_cons_of_mem c hd))
      rw [hblank c List.mem_cons_self, if_neg Bool.false_ne_true]
  have hbar : afterBar? symbol.toList = none := by
    cases hcs : symbol.toList with
    | nil => rfl
    | cons c cs =>
      have htrim : trimLeft (c :: cs) = c :: cs :=
        trimLeft_eq_self fun d hd => hblank d (by rw [hcs]; exact List.mem_of_mem_head? hd)
      unfold afterBar?
      rw [htrim]
      split
      · rename_i d rest heq
        cases heq
        rw [hblank d (by simp [hcs]), if_neg Bool.false_ne_true]
      · rfl
  refine alternatives_cons_none rfl (alternatives_cons_none ?_ hpiece)
  rw [hbar, ite_self]

theorem parse_aloneText : Grammar.parse (aloneText symbol) = alone symbol := by
  have hx : tokens ('x' :: ' ' :: symbol.toList) = ['x'] :: tokens symbol.toList :=
    tokens_append_blank (t := ['x']) rfl rfl symbol.toList
  have hnil : isNil ('x' :: ' ' :: symbol.toList) = false := rfl
  have hproduction : readProduction ('x' :: ' ' :: symbol.toList) =
      ⟨["x" :: (tokens symbol.toList).map String.ofList], false⟩ := by
    rw [readProduction, alternatives_alone hblank]
    simp [hnil, hx]
  rw [Grammar.parse, readDefinitions, definitions_aloneText hblank, List.map_singleton,
    hproduction]
  rfl

end Alone

theorem length_unquote_lt {cs : List Char} (h : isQuoted cs = true) :
    (unquote cs).length < cs.length := by
  cases cs with
  | nil => cases h
  | cons c cs =>
    rw [isQuoted, startsEnclosed, Bool.and_eq_true, Bool.and_eq_true, beq_iff_eq] at h
    obtain ⟨⟨rfl, -⟩, -⟩ := h
    have hfront := (List.dropWhile_sublist (l := cs) (· == '"')).length_le
    have hback := (List.dropWhile_sublist (l := (cs.dropWhile (· == '"')).reverse)
      (· == '"')).length_le
    rw [List.length_reverse] at hback
    rw [unquote, List.dropWhile_cons_of_pos rfl, List.length_reverse, List.length_cons]
    omega

theorem keywordName_ne_empty {word : List Char} (h : word ≠ []) : keywordName word ≠ "" := by
  obtain ⟨c, cs, rfl⟩ := List.exists_cons_of_ne_nil h
  rw [keywordName, replaceChar, List.flatMap_cons]
  by_cases hc : c = '@'
  · simp [hc]
  · simp [hc]

/-- A part of a symbol does not stand for what the symbol is renamed to. -/
theorem symbol_meaning_renamingAway {key t : String}
    (hblank : ∀ c ∈ t.toList, isBlank c = false) (hshape : Shape t.toList)
    (hpart : isQuoted t.toList = true → t.toList.length ≤ key.toList.length) (hne : t ≠ key) :
    (meaning (renamingAway key) g t).symbol ≠ .rule "" := by
  have hget : ∀ {s : String}, s ≠ key → (renamingAway key).renames.get? s = none := by
    intro s hs
    rw [Table.get?_eq_none_iff]
    simpa [renamingAway, Table.keys] using hs
  rw [meaning, any_isBlank_eq_false_iff.2 hblank, if_neg Bool.false_ne_true, reference, hget hne]
  dsimp only
  split
  · simp
  · split
    · rename_i hquoted
      split
      · simp
      · rename_i hword
        have hlength := length_unquote_lt hquoted
        have hother : String.ofList (unquote t.toList) ≠ key := by
          rintro rfl
          have hle := hpart hquoted
          rw [String.toList_ofList] at hle
          omega
        rw [hget hother]
        intro hrule
        rw [Symbol.rule.injEq] at hrule
        refine keywordName_ne_empty (fun hnil => hword ?_) hrule
        rw [hnil]
        rfl
    · have hoverride : (renamingAway key).referenceOverrides.get? t = none := rfl
      rw [bareSymbol, hoverride]
      dsimp only
      split
      · simp
      · simpa using hshape.solid.ne_empty

theorem splice_alone (key : String) : splice (renamingAway key) (alone key) = alone key :=
  splice_eq_self fun _ _ h => by cases h

/-- The meanings in the only production are those of its tokens. -/
theorem exists_of_mem_productionMeanings_alone {config : Config} {key : String}
    {e : String × Production} (he : (alone key).get? e.1 = some e.2) {m : Meaning}
    (hm : m ∈ productionMeanings config g e.2) :
    ∃ t ∈ "x" :: (tokens key.toList).map String.ofList,
      Shape t.toList ∧ meaning config g t = m := by
  have hentry : e = ("r", ⟨["x" :: (tokens key.toList).map String.ofList], false⟩) :=
    List.mem_singleton.1 (Table.get?_eq_some_iff.1 he)
  rw [hentry] at hm
  obtain ⟨choice, hchoice, t, ht, -, hmeaning⟩ := mem_productionMeanings.1 hm
  obtain rfl := List.mem_singleton.1 hchoice
  have hshape : Shape t.toList := by
    obtain rfl | ht := List.mem_cons.1 ht
    · have hx : token? "x".toList = some "x".toList := by decide
      exact shape_of_token? hx
    · obtain ⟨t', ht', rfl⟩ := List.mem_map.1 ht
      rw [String.toList_ofList]
      exact shape_of_mem_tokens ht'
  rw [hshape.solid.trimmed_eq] at hmeaning
  exact ⟨t, ht, hshape, hmeaning⟩

section Alone

variable {key : String} (hblank : ∀ c ∈ key.toList, isBlank c = false)
include hblank

theorem isBlank_of_mem_alone {t : String} (ht : t ∈ "x" :: (tokens key.toList).map String.ofList) :
    ∀ c ∈ t.toList, isBlank c = false := by
  obtain rfl | ht := List.mem_cons.1 ht
  · exact any_isBlank_eq_false_iff.1 (by decide)
  · obtain ⟨t', ht', rfl⟩ := List.mem_map.1 ht
    rw [String.toList_ofList]
    exact fun c hc => hblank c ((infix_of_mem_tokens ht').subset hc)

/-- The place of a symbol in its listing. -/
def renamedPlace : RenamedPlace (renamingAway key) (aloneText key) key "" where
  name := "r"
  line := 'x' :: ' ' :: key.toList
  before := ['x', ' ']
  after := []
  read := [['x']]
  definition := ⟨[], ['r'], [], definitions_aloneText hblank, rfl, by simp⟩
  mem_alternatives := by
    rw [alternatives_alone hblank]
    simp
  notNil := rfl
  left := by simp; rfl
  right := by simp
  reads := .token (t := ['x']) rfl (.skip rfl (.here _))
  rename := by simp [renamingAway, Table.get?]
  keyKept h := by cases h.1
  kept h := by cases h.1
  notDeleted := rfl
  notOverridden h := by cases h
  noHelper h := by
    rw [parse_aloneText hblank] at h
    obtain ⟨m, hm, words, hphrase⟩ := mem_helperNames.1 h
    obtain ⟨e, he, hm⟩ := mem_convertedMeanings.1 hm
    have hget := get?_of_mem_convertedProductions he
    rw [splice_alone] at hget
    obtain ⟨t, ht, -, rfl⟩ := exists_of_mem_productionMeanings_alone hget hm
    have hnone : t.toList.any isBlank = false :=
      any_isBlank_eq_false_iff.2 (isBlank_of_mem_alone hblank ht)
    rw [(phrase_meaning hphrase).1] at hnone
    cases hnone

/-- What is in pieces is not renamed. -/
theorem not_isHonoured_renamedPlace (h : token? key.toList ≠ some key.toList) :
    ¬ (renamedPlace hblank).IsHonoured := by
  rintro ⟨alternatives, lineBreaks, wrapper, hbody, -, hmem⟩
  rw [parse_aloneText hblank] at hbody hmem
  rw [build_eq rfl] at hbody
  obtain ⟨p, hp, hchoices⟩ | ⟨-, m, -, words, -, hphrase⟩ := mem_rules_buildRules hbody
  · have hget := get?_of_mem_convertedProductions hp
    rw [splice_alone] at hget
    cases hchoices
    obtain ⟨ms, hms, hsymbols⟩ := List.mem_map.1 (List.mem_filter.1 hmem).1
    obtain ⟨m, hm, hrule⟩ : ∃ m ∈ ms, m.symbol = .rule "" := by
      have hrule : Symbol.rule "" ∈ ms.map Meaning.symbol := by
        rw [hsymbols]
        exact List.mem_append_right _ List.mem_cons_self
      exact List.mem_map.1 hrule
    rw [splice_alone] at hms
    obtain ⟨t, ht, hshape, rfl⟩ := exists_of_mem_productionMeanings_alone hget
      (List.mem_flatten.2 ⟨ms, hms, hm⟩)
    refine symbol_meaning_renamingAway (isBlank_of_mem_alone hblank ht) hshape ?_ ?_ hrule
    · intro hquoted
      obtain rfl | ht := List.mem_cons.1 ht
      · exact absurd hquoted (by decide)
      · obtain ⟨t', ht', rfl⟩ := List.mem_map.1 ht
        rw [String.toList_ofList]
        exact (infix_of_mem_tokens ht').length_le
    · rintro rfl
      obtain rfl | ht := List.mem_cons.1 ht
      · exact h rfl
      · obtain ⟨t', ht', heq⟩ := List.mem_map.1 ht
        have hwhole : t.toList ∈ tokens t.toList := by
          rw [← heq, String.toList_ofList] at ht' ⊢
          exact ht'
        exact h (token?_of_mem_tokens hwhole)
  · cases hphrase

end Alone

/-- A rename is honoured wherever its symbol stands by itself in a listing if and only if the
symbol is a token. -/
theorem isHonoured_iff_token {key : String} (hblank : ∀ c ∈ key.toList, isBlank c = false) :
    (∀ config text target, ∀ place : RenamedPlace config text key target, place.IsHonoured) ↔
      token? key.toList = some key.toList := by
  constructor
  · intro h
    by_contra hne
    exact not_isHonoured_renamedPlace hblank hne (h _ _ _ _)
  · intro h config text target place
    exact place.isHonoured_of_token? hblank h

/-! ## The symbols of CQL -/

/-- A listing with a symbol of CQL that is no token. -/
def callText : String := "call ::= ID! '(' ')'\n"

/-- What is read from it. -/
def call : Grammar where
  entries := [("call", ⟨[["ID", "'('", "')'"]], false⟩)]
  distinct := by decide

theorem parse_callText : Grammar.parse callText = call :=
  Table.eq_of_entries_eq (by decide +kernel)

/-- The place of the symbol. -/
def idBangPlace : RenamedPlace Config.standard callText "ID!" "ID_BANG" where
  name := "call"
  line := "ID! '(' ')'".toList
  before := []
  after := " '(' ')'".toList
  read := []
  definition := ⟨[], "call ".toList, [], by decide +kernel, by decide +kernel, by simp⟩
  mem_alternatives := by decide +kernel
  notNil := by decide +kernel
  left := by simp
  right := by
    intro c hc
    obtain rfl : ' ' = c := Option.some.inj hc
    rfl
  reads := .here _
  rename := by decide +kernel
  keyKept := by rw [parse_callText]; decide +kernel
  kept := by rw [parse_callText]; decide +kernel
  notDeleted := by decide +kernel
  notOverridden := by decide +kernel
  noHelper := by rw [parse_callText]; decide +kernel

/-- Two of the symbols that are renamed by default are no tokens, and where `ID!` stands the rule
refers to `ID`. -/
theorem not_isHonoured_idBang :
    let renamed := Config.standard.renames.keys
    renamed.filter (fun key => token? key.toList ≠ some key.toList) =
        ["ID!", "`quoted_identifier`"] ∧
      (∀ config text target, ∀ place : RenamedPlace config text "integer-literal" target,
        place.IsHonoured) ∧
      ¬ (∀ config text target, ∀ place : RenamedPlace config text "ID!" target,
        place.IsHonoured) ∧
      ¬ idBangPlace.IsHonoured ∧
      generatedRules Config.standard (build Config.standard (Grammar.parse callText)) =
        [("call", "$ => seq($.ID, '(', ')')")] := by
  have hliteral := any_isBlank_eq_false_iff.1
    (by decide : "integer-literal".toList.any isBlank = false)
  have hmarked := any_isBlank_eq_false_iff.1 (by decide : "ID!".toList.any isBlank = false)
  refine ⟨by decide +kernel, (isHonoured_iff_token hliteral).2 (by decide +kernel),
    fun h => ?_, fun h => ?_, by rw [parse_callText]; decide +kernel⟩
  · have htoken := (isHonoured_iff_token hmarked).1 h
    exact absurd htoken (by decide +kernel)
  · obtain ⟨alternatives, lineBreaks, wrapper, hbody, -, hmem⟩ := h
    have hrules : (build Config.standard (Grammar.parse callText)).rules.entries =
        [("call", .choices [[.rule "ID", .literal "'('", .literal "')'"]] false none)] := by
      rw [parse_callText]
      decide +kernel
    rw [hrules] at hbody
    cases List.mem_singleton.1 hbody
    have hfirst : some (Symbol.rule "ID_BANG") = some (.rule "ID") :=
      congrArg List.head? (List.mem_singleton.1 hmem)
    exact absurd hfirst (by decide)

end CqlGlue.EditorGrammar
