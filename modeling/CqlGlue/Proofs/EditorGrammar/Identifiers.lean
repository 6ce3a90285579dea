import CqlGlue.Proofs.EditorGrammar.DeletedRules
import CqlGlue.Proofs.EditorGrammar.EmissionOrder
import CqlGlue.Proofs.EditorGrammar.ReferencedNames

/-!
# Rules named by identifiers

The names of rules come from productions, from keywords and from the configuration. In the name made
from a single keyword `@` is spelled out. In the name of a helper, made from several words, it is
not, so a keyword of several words with `@` in it gives a rule whose name is no identifier. All
other names are identifiers where those of the listing and of the configuration are.

## Main definitions
* `Alphabet` is what counts as a letter and as a digit.
* `Alphabet.isToken` says what tokens look like, `Alphabet.Fits` what the tables hold.
* `UsesIdentifiers` says that all names in the generated rules are identifiers.

## Main statements
* `usesIdentifiers_iff` says when they are, and `not_usesIdentifiers_echo` is a listing for which
  they are not.
-/

namespace CqlGlue.EditorGrammar

open Text Listing

/-! ## Definitions -/

/-- What letters and digits are. They are characters of words, and the letters of `AT_` are
letters. -/
structure Alphabet where
  isLetter : Char → Bool
  isDigit : Char → Bool
  letter_word : ∀ c, isLetter c = true → isWordChar c = true
  digit_word : ∀ c, isDigit c = true → isWordChar c = true
  letter_A : isLetter 'A' = true
  letter_T : isLetter 'T' = true

namespace Alphabet

/-- The letters and digits of ASCII. -/
def ascii : Alphabet where
  isLetter := Char.isAlpha
  isDigit := Char.isDigit
  letter_word c h := isWordChar_of_isAlphanum (by rw [Char.isAlphanum, h, Bool.true_or])
  digit_word c h := isWordChar_of_isAlphanum (by rw [Char.isAlphanum, h, Bool.or_true])
  letter_A := by decide
  letter_T := by decide

variable (A : Alphabet)

/-- Letters, digits and the underscore. -/
def isNamePart (c : Char) : Bool := A.isLetter c || A.isDigit c || c == '_'

/-- A letter or underscore, and letters, digits and underscores behind it. -/
def isIdentifier (cs : List Char) : Bool :=
  cs.head?.any (fun c => A.isLetter c || c == '_') && cs.all A.isNamePart

/-- A letter or `@`, and letters, digits, underscores and `@` behind it. -/
def isKeywordWord (cs : List Char) : Bool :=
  cs.head?.any (fun c => A.isLetter c || c == '@') && cs.all fun c => A.isNamePart c || c == '@'

/-- An identifier, one mark in single quotes, or words in double quotes with blanks between them. -/
def isToken (token : String) : Bool :=
  match token.toList with
  | '"' :: rest => (splitBlanks rest.dropLast).all A.isKeywordWord
  | '\'' :: _ => HoldsOneMark token
  | cs => A.isIdentifier cs

/-- The tables hold identifiers, and the texts in them refer to identifiers. -/
structure Fits (config : Config) : Prop where
  targets : ∀ target ∈ config.renames.values, A.isIdentifier target.toList = true
  deleted : ∀ name ∈ config.deleted.names, A.isIdentifier name.toList = true
  references : ∀ text ∈ config.referenceOverrides.values, ∀ name ∈ referencedNames text.toList,
    A.isIdentifier name = true
  definitions : ∀ text ∈ config.ruleOverrides.values, ∀ name ∈ referencedNames text.toList,
    A.isIdentifier name = true
  /-- What is put around a body adds nothing but identifiers to its names. -/
  wrappers : ∀ w ∈ config.precedence.values, ∀ body, ∀ name ∈
    referencedNames (wrap (some w) body).toList,
      A.isIdentifier name = true ∨ name ∈ referencedNames body.toList

/-- The productions of the listing are named by identifiers, and its tokens look as they should. -/
structure Spells (g : Grammar) : Prop where
  keys : ∀ name ∈ g.keys, A.isIdentifier name.toList = true
  tokens : ∀ t ∈ mentioned g, A.isToken t = true

end Alphabet

/-- The names of the generated rules and the names that they refer to are identifiers. -/
def UsesIdentifiers (A : Alphabet) (config : Config) (g : Grammar) : Prop :=
  ∀ rule ∈ generatedRules config (build config g), A.isIdentifier rule.1.toList = true ∧
    ∀ name ∈ referencedNames rule.2.toList, A.isIdentifier name = true

variable {A : Alphabet} {config : Config} {g : Grammar} {t name : String} {c : Char}
  {cs body : List Char}

/-! ## Identifiers -/

namespace Alphabet

theorem isWordChar_of_isNamePart (h : A.isNamePart c = true) : isWordChar c = true := by
  simp only [isNamePart, Bool.or_eq_true, beq_iff_eq] at h
  rcases h with (h | h) | rfl
  · exact A.letter_word c h
  · exact A.digit_word c h
  · decide

theorem isNameChar_of_isNamePart (h : A.isNamePart c = true) : isNameChar c = true := by
  rw [isNameChar, isWordChar_of_isNamePart h]
  rfl

theorem isIdentifier_iff :
    A.isIdentifier cs = true ↔
      (∃ c ∈ cs.head?, A.isLetter c = true ∨ c = '_') ∧ ∀ c ∈ cs, A.isNamePart c = true := by
  rw [isIdentifier, Bool.and_eq_true, Option.any_eq_true, List.all_eq_true]
  simp only [Bool.or_eq_true, beq_iff_eq, Option.mem_def]

theorem isKeywordWord_iff :
    A.isKeywordWord cs = true ↔
      (∃ c ∈ cs.head?, A.isLetter c = true ∨ c = '@') ∧
        ∀ c ∈ cs, A.isNamePart c = true ∨ c = '@' := by
  rw [isKeywordWord, Bool.and_eq_true, Option.any_eq_true, List.all_eq_true]
  simp only [Bool.or_eq_true, beq_iff_eq, Option.mem_def]

/-- Identifiers put together with an underscore are an identifier. -/
theorem isIdentifier_append {ds : List Char} (hcs : A.isIdentifier cs = true)
    (hds : A.isIdentifier ds = true) : A.isIdentifier (cs ++ ['_'] ++ ds) = true := by
  obtain ⟨⟨c, hc, hfirst⟩, hcs⟩ := isIdentifier_iff.1 hcs
  refine isIdentifier_iff.2 ⟨⟨c, ?_, hfirst⟩, ?_⟩
  · rw [List.append_assoc, List.head?_append, Option.mem_def.1 hc]
    rfl
  · intro d hd
    simp only [List.mem_append, List.mem_singleton] at hd
    rcases hd with (hd | rfl) | hd
    · exact hcs d hd
    · simp [isNamePart]
    · exact (isIdentifier_iff.1 hds).2 d hd

/-- A word of a keyword without `@` is an identifier. -/
theorem isIdentifier_of_isKeywordWord (h : A.isKeywordWord cs = true) (hat : '@' ∉ cs) :
    A.isIdentifier cs = true := by
  obtain ⟨⟨c, hc, hfirst⟩, hcs⟩ := isKeywordWord_iff.1 h
  refine isIdentifier_iff.2 ⟨⟨c, hc, hfirst.imp_right ?_⟩, fun d hd => ?_⟩
  · rintro rfl
    exact absurd (List.mem_of_mem_head? hc) hat
  · refine (hcs d hd).resolve_right ?_
    rintro rfl
    exact hat hd

/-- The name made from a single keyword is an identifier. -/
theorem isIdentifier_keywordName (h : A.isKeywordWord cs = true) :
    A.isIdentifier (keywordName cs).toList = true := by
  obtain ⟨⟨c, hc, hfirst⟩, hcs⟩ := isKeywordWord_iff.1 h
  have hat : ∀ d ∈ "AT_".toList, A.isNamePart d = true := by
    simp [isNamePart, A.letter_A, A.letter_T]
  rw [keywordName, String.toList_ofList, replaceChar]
  refine isIdentifier_iff.2 ⟨?_, fun d hd => ?_⟩
  · cases cs with
    | nil => cases hc
    | cons d cs =>
      cases hc
      rw [List.flatMap_cons]
      split
      · exact ⟨'A', rfl, .inl A.letter_A⟩
      · rename_i hne
        exact ⟨c, rfl, .inl (hfirst.resolve_right hne)⟩
  · obtain ⟨e, he, hd⟩ := List.mem_flatMap.1 hd
    split at hd
    · exact hat d hd
    · rename_i hne
      rw [List.mem_singleton.1 hd]
      exact (hcs e he).resolve_right hne

/-- The name of a helper is an identifier if `@` does not occur in its words. -/
theorem isIdentifier_phraseName {pieces : List (List Char)} (hne : pieces ≠ [])
    (h : ∀ piece ∈ pieces, A.isKeywordWord piece = true ∧ '@' ∉ piece) :
    A.isIdentifier (phraseName (pieces.map String.ofList)).toList = true := by
  have hpieces : (pieces.map String.ofList).map String.toList = pieces := by
    rw [List.map_map]
    exact List.map_id'' (fun piece => String.toList_ofList) pieces
  rw [phraseName, String.toList_intercalate, hpieces]
  exact intercalate_induction (fun _ _ => isIdentifier_append) hne
    fun piece hpiece => isIdentifier_of_isKeywordWord (h piece hpiece).1 (h piece hpiece).2

/-! ## Tokens -/

/-- The three ways in which a token is spelled. -/
inductive Spelling (A : Alphabet) (t : String) : Prop
  | name (h : A.isIdentifier t.toList = true)
  | mark (c : Char) (htoken : t.toList = ['\'', c, '\'']) (hquote : c ≠ '\'')
      (hblank : isBlank c = false)
  | keyword (body : List Char) (htoken : t.toList = '"' :: (body ++ ['"'])) (hne : body ≠ [])
      (hwords : ∀ piece ∈ splitBlanks body, A.isKeywordWord piece = true)

theorem spelling (hshape : Shape t.toList) (h : A.isToken t = true) : A.Spelling t := by
  generalize htoken : t.toList = cs at hshape
  rw [isToken, HoldsOneMark, htoken] at h
  cases hshape with
  | @double body hne hquote =>
    change (splitBlanks (body ++ ['"']).dropLast).all A.isKeywordWord = true at h
    rw [List.dropLast_concat] at h
    exact .keyword body htoken hne (List.all_eq_true.1 h)
  | single c =>
    simp only [Bool.and_eq_true, bne_iff_ne, Bool.not_eq_true'] at h
    exact .mark c htoken h.1 h.2
  | pair => cases h
  | bare hne hbare =>
    have hdouble : ∀ rest, cs ≠ '"' :: rest := by
      rintro rest rfl
      exact absurd (hbare _ List.mem_cons_self) (by decide)
    have hsingle : ∀ rest, cs ≠ '\'' :: rest := by
      rintro rest rfl
      exact absurd (hbare _ List.mem_cons_self) (by decide)
    split at h
    · exact absurd rfl (hdouble _)
    · exact absurd rfl (hsingle _)
    · exact .name (htoken ▸ h)

/-- What stands between double quotes are the characters of its words, and blanks. -/
theorem mem_body (hwords : ∀ piece ∈ splitBlanks body, A.isKeywordWord piece = true)
    (hc : c ∈ body) : isBlank c = true ∨ A.isNamePart c = true ∨ c = '@' := by
  cases hblank : isBlank c with
  | true => exact .inl rfl
  | false =>
    obtain ⟨piece, hpiece, hmem⟩ := exists_mem_splitBlanks hc hblank
    exact .inr ((isKeywordWord_iff.1 (hwords piece hpiece)).2 c hmem)

/-- There are no other quotes in it, and no `$`. -/
theorem not_mem_body (hwords : ∀ piece ∈ splitBlanks body, A.isKeywordWord piece = true)
    (hc : c ∈ ['"', '\'', '$']) : c ∉ body := by
  have hother : ['"', '\'', '$'].all (fun c => !isBlank c && !isWordChar c && c != '@') = true := by
    decide
  have hc := List.all_eq_true.1 hother c hc
  simp only [Bool.and_eq_true, Bool.not_eq_true', bne_iff_ne] at hc
  obtain ⟨⟨hvisible, hword⟩, hat⟩ := hc
  intro hmem
  rcases mem_body hwords hmem with hblank | hpart | rfl
  · exact absurd (hvisible.symm.trans hblank) (by decide)
  · exact absurd (hword.symm.trans (isWordChar_of_isNamePart hpart)) (by decide)
  · exact hat rfl

/-- A token with a blank inside is a keyword of several words. -/
theorem Spelling.phrase (h : A.Spelling t) (hblank : t.toList.any isBlank = true) :
    ∃ body, t.toList = '"' :: (body ++ ['"']) ∧
      (∀ piece ∈ splitBlanks body, A.isKeywordWord piece = true) ∧
      phraseWords t.toList = (splitBlanks body).map String.ofList := by
  cases h with
  | name hname =>
    obtain ⟨c, hc, hc'⟩ := List.any_eq_true.1 hblank
    have hpart := (isIdentifier_iff.1 hname).2 c hc
    have hbare : isBareChar c = true := isNameChar_of_isNamePart hpart
    exact absurd (hc'.symm.trans (isBlank_of_isBareChar hbare)) (by decide)
  | mark c htoken hquote hvisible =>
    have hmark : isBlank '\'' = false := by decide
    rw [htoken] at hblank
    simp [hmark, hvisible] at hblank
  | keyword body htoken hne hwords =>
    have hquote : '"' ∉ body := not_mem_body hwords (by decide)
    exact ⟨body, htoken, hwords, by rw [phraseWords, htoken, unquote_quoted hquote]⟩

/-! ## Symbols -/

section

variable (ht : A.Spelling t)
include ht

/-- The name of the rule of a single keyword is an identifier. -/
theorem Spelling.keyword_name (hshape : Shape t.toList) {word : String}
    (h : (meaning config g t).keyword = some (name, word)) :
    A.isIdentifier name.toList = true ∧ '$' ∉ word.toList := by
  obtain ⟨body, hbody, rfl, rfl⟩ := (keyword_meaning_iff hshape).1 h
  have htoken := hbody.quoted
  have hvisible : ∀ c ∈ body, isBlank c = false := fun c hc =>
    Bool.eq_false_iff.2 (List.any_eq_false.1 hbody.single c hc)
  cases ht with
  | name hname =>
    have hpart := (isIdentifier_iff.1 hname).2 '"' (htoken ▸ List.mem_cons_self)
    exact absurd (isWordChar_of_isNamePart hpart) (by decide)
  | mark c hmark _ _ => cases hmark.symm.trans htoken
  | keyword body' htoken' _ hwords =>
    cases List.append_cancel_right (List.cons.inj (htoken'.symm.trans htoken)).2
    refine ⟨isIdentifier_keywordName (hwords body ?_), ?_⟩
    · rw [splitBlanks_of_forall hvisible]
      exact List.mem_cons_self
    · rw [String.toList_ofList]
      exact not_mem_body hwords (by decide)

/-- The name of a helper is an identifier exactly if there is no `@` in the keyword. -/
theorem Spelling.phrase_name {words : List String}
    (h : (meaning config g t).phrase = some (name, words)) :
    (A.isIdentifier name.toList = true ↔ '@' ∉ t.toList) ∧ ∀ word ∈ words, '$' ∉ word.toList := by
  obtain ⟨hblank, rfl, rfl⟩ := words_of_phrase_meaning h
  obtain ⟨body, htoken, hwords, hphrase⟩ := ht.phrase hblank
  rw [hphrase, htoken]
  refine ⟨⟨fun hname hat => ?_, fun hat => ?_⟩, fun word hword => ?_⟩
  · have hbody : '@' ∈ body := by simpa using hat
    have hpart := (isIdentifier_iff.1 hname).2 '@' (mem_phraseName_of_mem hbody (by decide))
    exact absurd (isWordChar_of_isNamePart hpart) (by decide)
  · refine isIdentifier_phraseName (splitBlanks_ne_nil body) fun piece hpiece => ?_
    exact ⟨hwords piece hpiece, fun hmem => hat (by simp [mem_of_mem_splitBlanks hpiece hmem])⟩
  · obtain ⟨piece, hpiece, rfl⟩ := List.mem_map.1 hword
    rw [String.toList_ofList]
    exact fun hmem => not_mem_body hwords (by decide) (mem_of_mem_splitBlanks hpiece hmem)

/-- What stands for itself refers to nothing. -/
theorem Spelling.referencedNames_literal {text : String}
    (h : (meaning config g t).symbol = .literal text) : referencedNames text.toList = [] := by
  have hother : ['\'', '"'].all (!isWordChar ·) = true := by decide
  have hword : ∀ mark ∈ ['\'', '"'], isWordChar mark = false := fun mark hmark => by
    simpa using List.all_eq_true.1 hother mark hmark
  rw [meaning] at h
  split at h
  · -- The name of a helper holds no quotes.
    rename_i hblank
    obtain ⟨body, -, hwords, hphrase⟩ := ht.phrase hblank
    obtain ⟨-, mark, hmark, hmem⟩ := eq_of_literal_reference h
    rw [hphrase] at hmem
    rcases mem_phraseName hmem with rfl | hmem
    · exact absurd (hword '_' hmark) (by decide)
    · have hquotes : ['\'', '"'] ⊆ ['"', '\'', '$'] := by simp
      exact absurd hmem (not_mem_body hwords (hquotes hmark))
  · obtain ⟨rfl, mark, hmark, hmem⟩ := eq_of_literal_reference h
    cases ht with
    | name hname =>
      have hpart := isWordChar_of_isNamePart ((isIdentifier_iff.1 hname).2 mark hmem)
      exact absurd ((hword mark hmark).symm.trans hpart) (by decide)
    | mark c htoken _ _ =>
      rw [htoken]
      by_cases hc : c = '$'
      · subst hc
        rfl
      · exact referencedNames_eq_nil (by simp [Ne.symm hc])
    | keyword body htoken _ hwords =>
      have hdollar : '$' ∉ body := not_mem_body hwords (by decide)
      rw [htoken]
      exact referencedNames_eq_nil (by simp [hdollar])

variable (hshape : Shape t.toList) (hconfig : A.Fits config)
  (hat : t.toList.any isBlank = true → '@' ∉ t.toList)
include hshape hconfig hat

/-- The name that a token refers to is an identifier, unless it is that of a helper with `@`. -/
theorem Spelling.referred (h : (meaning config g t).symbol.referred? = some name) :
    A.isIdentifier name.toList = true := by
  rcases referred_meaning h
    with hrename | ⟨word, hkeyword⟩ | ⟨words, hphrase⟩ | ⟨rfl, hbare⟩
  · exact hconfig.targets name hrename
  · exact (ht.keyword_name hshape hkeyword).1
  · exact (ht.phrase_name hphrase).1.2 (hat (phrase_meaning hphrase).1)
  · cases ht with
    | name hname => exact hname
    | mark c htoken hquote _ =>
      have hpunctuation := hbare.punctuation
      rw [htoken] at hpunctuation
      simp [isPunctuation, startsEnclosed, hquote] at hpunctuation
    | keyword body htoken hne hwords =>
      have hquoted := hbare.quoted
      rw [htoken, isQuoted_quoted hne (not_mem_body hwords (by decide))] at hquoted
      cases hquoted

/-- All names in the printed form of a symbol are identifiers. -/
theorem Spelling.referencedNames_symbol {n : List Char}
    (hn : n ∈ referencedNames (meaning config g t).symbol.text.toList) :
    A.isIdentifier n = true := by
  cases hreferred : (meaning config g t).symbol.referred? with
  | some name =>
    have hname := ht.referred hshape hconfig hat hreferred
    rw [referencedNames_of_referred hreferred fun c hc =>
      isNameChar_of_isNamePart ((isIdentifier_iff.1 hname).2 c hc)] at hn
    rwa [List.mem_singleton.1 hn]
  | none =>
    cases hsymbol : (meaning config g t).symbol with
    | literal text =>
      rw [hsymbol] at hn
      change n ∈ referencedNames text.toList at hn
      rw [ht.referencedNames_literal hsymbol] at hn
      cases hn
    | rule name => rw [hsymbol] at hreferred; cases hreferred
    | optionalRule name => rw [hsymbol] at hreferred; cases hreferred
    | fixed text =>
      rw [hsymbol] at hn
      obtain ⟨token, htoken⟩ := exists_symbol_meaning_eq config g t
      have htext := get?_of_fixed_reference (htoken.symm.trans hsymbol)
      exact hconfig.references text (Table.mem_values_of_get? htext) n hn

end

end Alphabet

/-! ## Rules -/

section

variable (hconfig : A.Fits config) (hlisting : A.Spells g)
  (hshaped : ∀ name p, g.get? name = some p → Shaped p.choices)

include hlisting hshaped in
/-- A token in use is spelled in one of the three ways. -/
theorem IsUsed.spelling (h : IsUsed config g t) : A.Spelling t :=
  Alphabet.spelling (h.shape_of_shaped hshaped)
    (hlisting.tokens t (mem_mentioned_of_splice h.mem_mentioned_splice))

include hconfig in
/-- What is deleted is an identifier. -/
theorem isIdentifier_of_isDeleted (h : config.isDeleted name = true) :
    A.isIdentifier name.toList = true := by
  rw [Config.isDeleted, Bool.or_eq_true, NameSet.contains, List.contains_iff_mem,
    List.contains_iff_mem] at h
  exact h.elim (hconfig.deleted name) (hconfig.targets name)

variable (hat : ∀ t, IsUsed config g t → t.toList.any isBlank = true → '@' ∉ t.toList)
include hlisting hshaped hat

/-- Helpers are named by identifiers, and their words hold no `$`. -/
theorem isIdentifier_helper {m : Meaning} (hm : m ∈ convertedMeanings config g)
    {words : List String} (h : m.phrase = some (name, words)) :
    A.isIdentifier name.toList = true ∧ ∀ word ∈ words, '$' ∉ word.toList := by
  obtain ⟨t, ht, rfl⟩ := (mem_convertedMeanings_iff_isUsed hshaped).1 hm
  obtain ⟨hname, hwords⟩ := (ht.spelling hlisting hshaped).phrase_name h
  exact ⟨hname.2 (hat t ht (phrase_meaning h).1), hwords⟩

/-- The names of rules are identifiers. -/
theorem isIdentifier_of_mem_generatedRules
    (h : name ∈ (generatedRules config (build config g)).map Prod.fst) :
    A.isIdentifier name.toList = true := by
  rcases mem_map_fst_generatedRules.1 h with ⟨⟨-, hkey | hhelper⟩, -⟩ | hkeyword
  · exact hlisting.keys name hkey
  · obtain ⟨m, hm, words, hphrase⟩ := mem_helperNames.1 hhelper
    exact (isIdentifier_helper hlisting hshaped hat hm hphrase).1
  · obtain ⟨m, hm, word, hkeyword⟩ := mem_keywordNames.1 hkeyword
    obtain ⟨t, ht, rfl⟩ := (mem_convertedMeanings_iff_isUsed hshaped).1 hm
    exact ((ht.spelling hlisting hshaped).keyword_name (ht.shape_of_shaped hshaped) hkeyword).1

include hconfig

/-- The rule of a production refers to identifiers. -/
theorem isIdentifier_of_mem_productionBody {e : String × Production}
    (he : e ∈ convertedProductions config g) {n : List Char}
    (hn : n ∈ referencedNames (productionBody config (splice config g) e.1 e.2).text.toList) :
    A.isIdentifier n = true := by
  let body := choiceText (productionSymbols config (splice config g) e.2)
    (config.lineBreakRules.contains e.1)
  have hbody : n ∈ referencedNames body.toList → A.isIdentifier n = true := by
    intro hn
    rw [referencedNames_choiceText] at hn
    obtain ⟨s, hs, hn⟩ := List.mem_flatMap.1 hn
    obtain ⟨m, hm, rfl⟩ := exists_of_mem_productionSymbols hs
    obtain ⟨t, ht, rfl⟩ :=
      (mem_convertedMeanings_iff_isUsed hshaped).1 (mem_convertedMeanings.2 ⟨e, he, hm⟩)
    exact (ht.spelling hlisting hshaped).referencedNames_symbol (ht.shape_of_shaped hshaped)
      hconfig (hat t ht) hn
  change n ∈ referencedNames ("$ => " ++ wrap (config.precedence.get? e.1) body).toList at hn
  rw [referencedNames_arrow] at hn
  cases hwrapper : config.precedence.get? e.1 with
  | none =>
    rw [hwrapper] at hn
    exact hbody hn
  | some w =>
    rw [hwrapper] at hn
    exact (hconfig.wrappers w (Table.mem_values_of_get? hwrapper) body n hn).elim id hbody

/-- What is generated refers to identifiers. -/
theorem isIdentifier_of_mem_referencedNames {rule : String × String}
    (hrule : rule ∈ generatedRules config (build config g)) {n : List Char}
    (hn : n ∈ referencedNames rule.2.toList) : A.isIdentifier n = true := by
  obtain ⟨name, text⟩ := rule
  rw [generatedRules, List.mem_append, Table.mem_entries_map, Table.mem_entries_map] at hrule
  rcases hrule with ⟨body, hbody, rfl⟩ | ⟨word, hword, rfl⟩
  · have hentry := (Table.mem_entries_filter.1 hbody).1
    rw [build, Draft.entries_rules_override, List.mem_map] at hentry
    obtain ⟨⟨key, made⟩, hmade, heq⟩ := hentry
    cases heq
    cases hoverride : config.ruleOverrides.get? key with
    | some text =>
      rw [hoverride] at hn
      exact hconfig.definitions text (Table.mem_values_of_get? hoverride) n hn
    | none =>
      rw [hoverride] at hn
      change n ∈ referencedNames made.text.toList at hn
      rcases mem_rules_buildRules hmade with ⟨p, hp, rfl⟩ | ⟨-, m, hm, words, hphrase, rfl⟩
      · exact isIdentifier_of_mem_productionBody hconfig hlisting hshaped hat hp hn
      · rw [referencedNames_phrase (isIdentifier_helper hlisting hshaped hat hm hphrase).2] at hn
        cases hn
  · obtain ⟨m, hm, hkeyword⟩ := mem_keywords_buildRules hword
    obtain ⟨t, ht, rfl⟩ := (mem_convertedMeanings_iff_isUsed hshaped).1 hm
    rw [referencedNames_keywordBody ((ht.spelling hlisting hshaped).keyword_name
      (ht.shape_of_shaped hshaped) hkeyword).2] at hn
    cases hn

end

/-- All names are identifiers if and only if no keyword of several words in use has an `@`. -/
theorem usesIdentifiers_iff (A : Alphabet) (config : Config) (text : String)
    (hconfig : A.Fits config) (hlisting : A.Spells (Grammar.parse text)) :
    UsesIdentifiers A config (Grammar.parse text) ↔
      ∀ t, IsUsed config (Grammar.parse text) t → t.toList.any isBlank = true →
        '@' ∉ t.toList := by
  have hshaped : ∀ name p, (Grammar.parse text).get? name = some p → Shaped p.choices :=
    fun _ _ hp => shaped_parse hp
  constructor
  · intro h t ht hblank
    have hphrase : (meaning config (splice config (Grammar.parse text)) t).phrase =
        some (phraseName (phraseWords t.toList), phraseWords t.toList) := by
      rw [meaning, hblank, if_pos rfl]
    refine ((ht.spelling hlisting hshaped).phrase_name hphrase).1.1 ?_
    by_contra hother
    -- A helper whose name is no identifier is neither suppressed nor deleted.
    have hprinted := mem_map_fst_generatedRules.2 (.inl ⟨⟨fun hsuppressed =>
        hother (hlisting.keys _ hsuppressed.2), .inr (mem_helperNames.2
          ⟨_, (mem_convertedMeanings_iff_isUsed hshaped).2 ⟨t, ht, rfl⟩, _, hphrase⟩)⟩,
      Bool.eq_false_iff.2 (mt (isIdentifier_of_isDeleted hconfig) hother)⟩)
    obtain ⟨rule, hrule, hname⟩ := List.mem_map.1 hprinted
    exact hother (hname ▸ (h rule hrule).1)
  · rintro hat rule hrule
    exact ⟨isIdentifier_of_mem_generatedRules hlisting hshaped hat (List.mem_map_of_mem hrule),
      fun n hn => isIdentifier_of_mem_referencedNames hconfig hlisting hshaped hat hrule hn⟩

/-- Tables with a wrapper and an expression. -/
def echoConfig : Config :=
  { suppressing [] with
    precedence := Table.ofList [("r", "prec.left(1, \x7b\x7d)")]
    referenceOverrides := Table.ofList [("opt_list", "optional($.list)")] }

/-- A listing with a keyword of two words of which one begins with `@`. -/
def echoText : String := "r ::= \"@ECHO ALL\" \"@ECHO\" opt_list '$'\n"

/-- What is read from it. -/
def echoListing : Grammar where
  entries := [("r", ⟨[["\"@ECHO ALL\"", "\"@ECHO\"", "opt_list", "'$'"]], false⟩)]
  distinct := by decide

theorem parse_echoText : Grammar.parse echoText = echoListing :=
  Table.eq_of_entries_eq (by decide +kernel)

theorem fits_echoConfig : Alphabet.ascii.Fits echoConfig where
  targets := nofun
  deleted := nofun
  references := by decide +kernel
  definitions := nofun
  wrappers := by
    intro w hw body n hn
    have hw : w = "prec.left(1, \x7b\x7d)" := List.mem_singleton.1 hw
    subst hw
    have hcut : splitFirst ['\x7b', '\x7d'] "prec.left(1, \x7b\x7d)".toList =
        some ("prec.left(1,".toList ++ [' '], [')']) := by decide +kernel
    rw [referencedNames_wrap hcut (by decide) (by decide) (by decide)] at hn
    have hnames : referencedNames "prec.left(1,".toList = [] ∧ referencedNames [')'] = [] := by
      decide
    rw [hnames.1, hnames.2, List.nil_append, List.append_nil] at hn
    exact .inr hn

/-- The single keyword `@ECHO` has an identifier for its name, the helper of `@ECHO ALL` has not. -/
theorem not_usesIdentifiers_echo :
    Alphabet.ascii.Fits echoConfig ∧ Alphabet.ascii.Spells (Grammar.parse echoText) ∧
      generatedRules echoConfig (build echoConfig (Grammar.parse echoText)) =
        [("@ECHO_ALL", "$ => prec.left(1, seq(CI('@echo'), CI('all')))"),
          ("r", "$ => prec.left(1, seq($.@ECHO_ALL, $.AT_ECHO, optional($.list), '$'))"),
          ("AT_ECHO", "$ => CI('@echo')")] ∧
      ¬ UsesIdentifiers Alphabet.ascii echoConfig (Grammar.parse echoText) := by
  have hlisting : Alphabet.ascii.Spells (Grammar.parse echoText) := by
    rw [parse_echoText]
    exact ⟨by decide +kernel, by decide +kernel⟩
  refine ⟨fits_echoConfig, hlisting, ?_, fun h => ?_⟩
  · rw [parse_echoText]
    decide +kernel
  · have hat := (usesIdentifiers_iff Alphabet.ascii echoConfig echoText fits_echoConfig
      hlisting).1 h
    rw [parse_echoText] at hat
    exact absurd (hat "\"@ECHO ALL\"" ⟨echoListing.entries.head (by decide), by decide +kernel, _,
      List.mem_cons_self, List.mem_cons_self⟩ (by decide)) (by decide)

end CqlGlue.EditorGrammar
