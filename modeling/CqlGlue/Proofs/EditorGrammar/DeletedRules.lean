import CqlGlue.Proofs.EditorGrammar.KeywordMeanings
import CqlGlue.Proofs.EditorGrammar.RuleNames

/-!
# Rules that are not to be printed

The configuration deletes rules, by their names or as targets of renames. Productions and helpers
of such a name are left out of the generated file. The rules of single keywords are not looked at,
so a deleted name is defined again where a keyword has it, and only there.

## Main definitions
* `IsKeywordOf` says that a token is a keyword with a rule of its own.
* `StaysDeleted` says that no deleted name is defined by a generated rule.

## Main statements
* `keyword_meaning_iff` says which tokens have a keyword rule, under any configuration.
* `staysDeleted_iff` says when deleted rules stay deleted, and `not_staysDeleted_program` is a
  listing for which they do not.
-/

namespace CqlGlue.EditorGrammar

open Text Listing

variable {config : Config} {g : Grammar} {t name word : String} {body : List Char}

/-! ## Tokens with a keyword rule -/

/-- The token is one word in double quotes and no mark, and neither it nor the word is renamed. -/
structure IsKeywordOf (config : Config) (t : String) (body : List Char) : Prop where
  quoted : t.toList = '"' :: (body ++ ['"'])
  single : body.any isBlank = false
  notMark : isMark body = false
  tokenKept : t ∉ config.renames.keys
  wordKept : String.ofList body ∉ config.renames.keys

/-- What stands between the quotes of a token is not empty and holds no quote. -/
theorem IsKeywordOf.inner (h : IsKeywordOf config t body) (hshape : Shape t.toList) :
    body ≠ [] ∧ '"' ∉ body := by
  generalize htoken : t.toList = cs at hshape
  have heq := h.quoted.symm.trans htoken
  cases hshape with
  | double hne hquote =>
    cases List.append_cancel_right (List.cons.inj heq).2
    exact ⟨hne, hquote⟩
  | single c => cases heq
  | pair => cases heq
  | bare _ hbare => exact absurd (hbare '"' (heq ▸ List.mem_cons_self)) (by decide)

/-- What stands for another name has no rule of its own. -/
theorem keyword_reference_of_renamed (h : t ∈ config.renames.keys) :
    (reference config g t).keyword = none := by
  obtain ⟨target, htarget⟩ := Table.mem_keys_iff.1 h
  rw [reference, Table.get?_eq_some_iff.2 htarget]

/-- The rule of a text in double quotes without a blank. -/
theorem keyword_reference_iff (htoken : t.toList = '"' :: (body ++ ['"'])) (hne : body ≠ [])
    (hquote : '"' ∉ body) (hsingle : body.any isBlank = false) :
    (reference config g t).keyword = some (name, word) ↔
      IsKeywordOf config t body ∧ name = keywordName body ∧ word = String.ofList body := by
  have hmark : isMark body = (body.all isOperatorChar || !body.head?.any isNameChar) := by
    rw [isMark, hsingle]
    rfl
  by_cases htoken' : t ∈ config.renames.keys
  · rw [keyword_reference_of_renamed htoken']
    exact iff_of_false (Option.some_ne_none _).symm fun h => h.1.tokenKept htoken'
  rw [reference_quoted_of_get? htoken hne hquote (Table.get?_eq_none_iff.2 htoken'), ← hmark]
  cases hm : isMark body with
  | true =>
    exact iff_of_false (Option.some_ne_none _).symm fun h =>
      Bool.noConfusion (hm.symm.trans h.1.notMark)
  | false =>
    rw [if_neg Bool.false_ne_true]
    by_cases hword : String.ofList body ∈ config.renames.keys
    · obtain ⟨target, htarget⟩ := Table.mem_keys_iff.1 hword
      rw [Table.get?_eq_some_iff.2 htarget]
      exact iff_of_false (Option.some_ne_none _).symm fun h => h.1.wordKept hword
    · rw [Table.get?_eq_none_iff.2 hword]
      constructor
      · intro h
        cases h
        exact ⟨⟨htoken, hsingle, hm, htoken', hword⟩, rfl, rfl⟩
      · rintro ⟨-, rfl, rfl⟩
        rfl

/-- The name of a helper has no quotes around it, so no rule of a single keyword comes with one. -/
theorem keyword_phraseName (hshape : Shape t.toList) (hblank : t.toList.any isBlank = true) :
    (reference config g (phraseName (phraseWords t.toList))).keyword = none := by
  rw [Option.eq_none_iff_forall_ne_some]
  intro k hk
  have hquoted := isQuoted_of_keyword_reference hk
  rcases quoted_or_single_of_any_isBlank hshape hblank with ht | ⟨c, htoken, hc⟩
  · obtain ⟨body, htoken, -, hquote⟩ := exists_body_of_isQuoted hshape ht
    rw [phraseWords, htoken, unquote_quoted hquote, isQuoted, startsEnclosed_of_not_mem] at hquoted
    · cases hquoted
    · intro hmem
      rcases mem_phraseName hmem with hmem | hmem
      · exact absurd hmem (by decide)
      · exact hquote hmem
  · rw [htoken, phraseName_single hc] at hquoted
    exact absurd hquoted (by decide)

/-- Exactly the keywords of one word that are not renamed have a rule of a single keyword. -/
theorem keyword_meaning_iff (hshape : Shape t.toList) :
    (meaning config g t).keyword = some (name, word) ↔
      ∃ body, IsKeywordOf config t body ∧ name = keywordName body ∧ word = String.ofList body := by
  have hquotes : isBlank '"' = false := by decide
  cases hblank : t.toList.any isBlank with
  | true =>
    rw [meaning, hblank, if_pos rfl]
    dsimp only
    rw [keyword_phraseName hshape hblank]
    refine iff_of_false (Option.some_ne_none _).symm ?_
    rintro ⟨body, h, -⟩
    rw [h.quoted, any_isBlank_quoted _ hquotes, h.single] at hblank
    cases hblank
  | false =>
    rw [meaning, hblank, if_neg Bool.false_ne_true]
    constructor
    · intro h
      obtain ⟨body, htoken, hne, hquote⟩ :=
        exists_body_of_isQuoted hshape (isQuoted_of_keyword_reference h)
      have hsingle : body.any isBlank = false := by
        rwa [htoken, any_isBlank_quoted _ hquotes] at hblank
      exact ⟨body, (keyword_reference_iff htoken hne hquote hsingle).1 h⟩
    · rintro ⟨body, h, hname, hword⟩
      obtain ⟨hne, hquote⟩ := h.inner hshape
      exact (keyword_reference_iff h.quoted hne hquote h.single).2 ⟨h, hname, hword⟩

/-! ## Deleted names -/

/-- No rule that is printed has a deleted name. -/
def StaysDeleted (config : Config) (g : Grammar) : Prop :=
  ∀ name, config.isDeleted name = true →
    name ∉ (generatedRules config (build config g)).map Prod.fst

/-- The names of the single keywords that a listing relies on. -/
theorem mem_keywordNames_iff (hshaped : ∀ name p, g.get? name = some p → Shaped p.choices) :
    name ∈ keywordNames config g ↔
      ∃ t body, IsUsed config g t ∧ IsKeywordOf config t body ∧ keywordName body = name := by
  rw [mem_keywordNames]
  constructor
  · rintro ⟨m, hm, word, hkeyword⟩
    obtain ⟨t, ht, rfl⟩ := (mem_convertedMeanings_iff_isUsed hshaped).1 hm
    obtain ⟨body, hbody, rfl, -⟩ := (keyword_meaning_iff (ht.shape_of_shaped hshaped)).1 hkeyword
    exact ⟨t, body, ht, hbody, rfl⟩
  · rintro ⟨t, body, ht, hbody, rfl⟩
    exact ⟨_, (mem_convertedMeanings_iff_isUsed hshaped).2 ⟨t, ht, rfl⟩, String.ofList body,
      (keyword_meaning_iff (ht.shape_of_shaped hshaped)).2 ⟨body, hbody, rfl, rfl⟩⟩

/-- Deleted rules stay deleted if and only if no keyword of one word that a production with a rule
uses has a deleted name, unless the keyword is renamed. -/
theorem staysDeleted_iff (config : Config) (text : String) :
    StaysDeleted config (Grammar.parse text) ↔
      ∀ t body, IsUsed config (Grammar.parse text) t → IsKeywordOf config t body →
        config.isDeleted (keywordName body) = false := by
  have hshaped : ∀ name p, (Grammar.parse text).get? name = some p → Shaped p.choices :=
    fun _ _ hp => shaped_parse hp
  simp only [StaysDeleted, mem_map_fst_generatedRules]
  constructor
  · intro h t body ht hbody
    rw [← Bool.not_eq_true]
    intro hdeleted
    exact h _ hdeleted (.inr ((mem_keywordNames_iff hshaped).2 ⟨t, body, ht, hbody, rfl⟩))
  · rintro h name hdeleted (⟨-, hkept⟩ | hkeyword)
    · exact absurd (hdeleted.symm.trans hkept) (by decide)
    · obtain ⟨t, body, ht, hbody, rfl⟩ := (mem_keywordNames_iff hshaped).1 hkeyword
      exact absurd (hdeleted.symm.trans (h t body ht hbody)) (by decide)

/-- A listing with a keyword called like a rule that is written by hand. -/
def programText : String := "r ::= \"program\" \"@ECHO\"\n"

/-- What is read from it. -/
def programListing : Grammar where
  entries := [("r", ⟨[["\"program\"", "\"@ECHO\""]], false⟩)]
  distinct := by decide

theorem parse_programText : Grammar.parse programText = programListing :=
  Table.eq_of_entries_eq (by decide +kernel)

/-- The entry rule of the grammar of CQL is deleted, and the keyword defines it again. -/
theorem not_staysDeleted_program :
    Config.standard.isDeleted "program" = true ∧
      generatedRules Config.standard (build Config.standard (Grammar.parse programText)) =
        [("r", "$ => seq($.program, $.AT_ECHO)"), ("program", "$ => CI('program')"),
          ("AT_ECHO", "$ => CI('@echo')")] ∧
      ¬ StaysDeleted Config.standard (Grammar.parse programText) := by
  refine ⟨by decide +kernel, ?_, fun h => ?_⟩
  · rw [parse_programText]
    decide +kernel
  · rw [staysDeleted_iff, parse_programText] at h
    have hkept := h "\"program\"" "program".toList
      ⟨("r", ⟨[["\"program\"", "\"@ECHO\""]], false⟩), by decide +kernel, _, List.mem_cons_self,
        List.mem_cons_self⟩
      ⟨by decide, by decide, by decide, by decide +kernel, by decide +kernel⟩
    exact absurd hkept (by decide +kernel)

end CqlGlue.EditorGrammar
