import CqlGlue.Proofs.EditorGrammar.Derivation
import CqlGlue.Proofs.EditorGrammar.Quoting
import CqlGlue.Proofs.Listing.Tokens
import Mathlib.Data.List.TakeWhile

/-!
# What the tokens of a listing mean

A token of a listing is a mark, a keyword of one word, a keyword of several words, or a bare
name, and its meaning is known from which of these it is. The configuration has no say here: it
renames nothing and overrides no reference.

## Main definitions
* `IsPlainToken` leaves out quoted tokens that hold quotes of the other kind.
* `keywordRule?` is the name of the rule made from a keyword.
* `TokenKind` is the case distinction, `QuotedKind` that of texts in double quotes alone.

## Main statements
* `quotedKind_double` and `tokenKind_meaning` say that there are no other cases.
* `quotedText?_of_mark` says that marks without escapes are read as they are meant.
-/

namespace CqlGlue.EditorGrammar

open Text Listing

/-- A single-quoted token holds one character other than a single quote or a blank, and a
double-quoted token holds no single quote. -/
def IsPlainToken (token : String) : Bool :=
  match token.toList with
  | '"' :: rest => !rest.contains '\''
  | ['\'', c, '\''] => c != '\'' && !isBlank c
  | '\'' :: _ => false
  | _ => true

/-- The name of the rule made from the text between double quotes. -/
def keywordRuleName (body : List Char) : String :=
  if body.any isBlank then phraseName ((splitBlanks body).map String.ofList) else keywordName body

/-- The name of the rule made from a keyword; other tokens have none. -/
def keywordRule? (token : String) : Option String :=
  match token.toList with
  | '"' :: rest =>
    if isMark rest.dropLast then none else some (keywordRuleName rest.dropLast)
  | _ => none

/-- The kinds of tokens, each with what the token derives, the rule made from it and its
meaning. -/
inductive TokenKind (g : Grammar) (token : String) (m : Meaning) : Prop
  | mark (hderives : terminals? token = some [.mark (unquoted token)])
      (hrule : keywordRule? token = none) (hm : m = ⟨.literal token, none, none⟩)
  | keyword (name word : String) (hword : IsWordOf token word)
      (hderives : terminals? token = some (phraseTerminals [word]))
      (hrule : keywordRule? token = some name) (hm : m = ⟨.rule name, none, some (name, word)⟩)
  | phrase (name : String) (words : List String) (hwords : ∀ word ∈ words, IsWordOf token word)
      (hderives : terminals? token = some (phraseTerminals words))
      (hrule : keywordRule? token = some name) (hm : m = ⟨.rule name, some (name, words), none⟩)
  | bare (hderives : terminals? token = none) (hrule : keywordRule? token = none)
      (hm : m = ⟨if Grammar.isOptional g token then .optionalRule token else .rule token,
        none, none⟩)

/-- The kinds of texts in double quotes. The name of a helper is looked up like a bare one, so the
symbol is optional where a production of this name may match nothing. -/
inductive QuotedKind (g : Grammar) (token : String) (m : Meaning) : Prop
  | mark (hderives : terminals? token = some [.mark (unquoted token)])
      (hrule : keywordRule? token = none) (hm : m = ⟨.literal token, none, none⟩)
  | keyword (name word : String) (hblank : token.toList.any isBlank = false)
      (hword : IsWordOf token word)
      (hderives : terminals? token = some (phraseTerminals [word]))
      (hrule : keywordRule? token = some name) (hm : m = ⟨.rule name, none, some (name, word)⟩)
  | phrase (name : String) (words : List String) (hblank : token.toList.any isBlank = true)
      (hwords : ∀ word ∈ words, IsWordOf token word)
      (hderives : terminals? token = some (phraseTerminals words))
      (hrule : keywordRule? token = some name)
      (hm : m = ⟨if Grammar.isOptional g name then .optionalRule name else .rule name,
        some (name, words), none⟩)

/-- A helper comes from a keyword of several words. -/
theorem TokenKind.of_phrase {g : Grammar} {token name : String} {m : Meaning}
    {words : List String} (h : TokenKind g token m) (hm : m.phrase = some (name, words)) :
    keywordRule? token = some name ∧ terminals? token = some (phraseTerminals words) ∧
      ∀ word ∈ words, IsWordOf token word := by
  cases h with
  | mark _ _ heq => rw [heq] at hm; cases hm
  | keyword _ _ _ _ _ heq => rw [heq] at hm; cases hm
  | phrase _ _ hwords hderives hrule heq =>
    rw [heq] at hm
    cases hm
    exact ⟨hrule, hderives, hwords⟩
  | bare _ _ heq => rw [heq] at hm; cases hm

/-- A keyword rule comes from a keyword of one word. -/
theorem TokenKind.of_keyword {g : Grammar} {token name word : String} {m : Meaning}
    (h : TokenKind g token m) (hm : m.keyword = some (name, word)) :
    keywordRule? token = some name ∧ terminals? token = some (phraseTerminals [word]) ∧
      IsWordOf token word := by
  cases h with
  | mark _ _ heq => rw [heq] at hm; cases hm
  | keyword _ _ hword hderives hrule heq =>
    rw [heq] at hm
    cases hm
    exact ⟨hrule, hderives, hword⟩
  | phrase _ _ _ _ _ heq => rw [heq] at hm; cases hm
  | bare _ _ heq => rw [heq] at hm; cases hm

/-- Every token in a listing that was read has a shape. -/
theorem shape_of_mem_mentioned {g : Grammar}
    (hshaped : ∀ name p, g.get? name = some p → Shaped p.choices) {t : String}
    (ht : t ∈ mentioned g) : Shape t.toList := by
  obtain ⟨name, p, hp, choice, hchoice, htc⟩ := mem_mentioned.1 ht
  exact (hshaped name p hp choice hchoice).2 t htc

/-! ## Quoted texts -/

variable {body : List Char}

theorem any_isBlank_quoted (mark : Char) (hmark : isBlank mark = false) :
    (mark :: (body ++ [mark])).any isBlank = body.any isBlank := by
  simp [hmark]

theorem startsEnclosed_of_not_mem {mark : Char} {inside : Char → Bool} {cs : List Char}
    (h : mark ∉ cs) : startsEnclosed mark inside cs = false := by
  cases cs with
  | nil => rfl
  | cons c cs =>
    have hc : (c == mark) = false :=
      beq_eq_false_iff_ne.2 fun hc => h (hc ▸ List.mem_cons_self)
    rw [startsEnclosed, hc]
    rfl

theorem mem_of_startsEnclosed {mark : Char} {inside : Char → Bool} {cs : List Char}
    (h : startsEnclosed mark inside cs = true) : mark ∈ cs := by
  apply Decidable.byContradiction
  intro hmem
  rw [startsEnclosed_of_not_mem hmem] at h
  cases h

theorem isQuoted_quoted (hne : body ≠ []) (hquote : '"' ∉ body) :
    isQuoted ('"' :: (body ++ ['"'])) = true := by
  have hbody : ∀ c ∈ body, (c != '"') = true := by
    intro c hc
    rw [bne_iff_ne]
    rintro rfl
    exact hquote hc
  rw [isQuoted, startsEnclosed, List.takeWhile_append_of_pos hbody,
    List.dropWhile_append_of_pos hbody]
  simp [hne]

/-- A quoted text is an operator when all of its characters are operator characters. -/
theorem isOperator_quoted (hne : body ≠ []) (hquote : '"' ∉ body) :
    isOperator ('"' :: (body ++ ['"'])) = body.all isOperatorChar := by
  have hmark : isOperatorChar '"' = false := by decide
  rw [isOperator, startsEnclosed, Bool.eq_iff_iff]
  constructor
  · intro h
    rw [List.dropWhile_append] at h
    split at h
    · rename_i hempty
      have hall : body.takeWhile isOperatorChar = body := by
        have hsplit := List.takeWhile_append_dropWhile (p := isOperatorChar) (l := body)
        rwa [List.isEmpty_iff.1 hempty, List.append_nil] at hsplit
      rw [← hall]
      exact List.all_takeWhile
    · rename_i hempty
      -- The first character that is not an operator character would be the closing quote.
      cases hdrop : body.dropWhile isOperatorChar with
      | nil =>
        rw [hdrop] at hempty
        exact absurd rfl hempty
      | cons c cs =>
        rw [hdrop] at h
        simp only [List.cons_append, List.head?_cons, Bool.and_eq_true, beq_iff_eq,
          Option.some.injEq] at h
        obtain ⟨-, rfl⟩ := h
        have hmem : '"' ∈ body.dropWhile isOperatorChar := hdrop ▸ List.mem_cons_self
        exact absurd ((List.dropWhile_sublist _).subset hmem) hquote
  · intro h
    have hall : ∀ c ∈ body, isOperatorChar c = true := List.all_eq_true.1 h
    rw [List.takeWhile_append_of_pos hall, List.dropWhile_append_of_pos hall]
    simp [hmark, hne]

theorem unquote_quoted (hquote : '"' ∉ body) : unquote ('"' :: (body ++ ['"'])) = body := by
  have hfirst : ∀ cs : List Char, '"' ∉ cs → cs.dropWhile (· == '"') = cs := by
    intro cs hcs
    cases cs with
    | nil => rfl
    | cons c cs =>
      have hc : (c == '"') = false :=
        beq_eq_false_iff_ne.2 fun hc => hcs (hc ▸ List.mem_cons_self)
      rw [List.dropWhile_cons, hc]
      rfl
  have hfront : ('"' :: (body ++ ['"'])).dropWhile (· == '"') =
      (body ++ ['"']).dropWhile (· == '"') := by rw [List.dropWhile_cons]; rfl
  cases body with
  | nil => rfl
  | cons c cs =>
    have hc : (c == '"') = false :=
      beq_eq_false_iff_ne.2 fun hc => hquote (hc ▸ List.mem_cons_self)
    rw [unquote, hfront, List.cons_append, List.dropWhile_cons, hc, if_neg (by simp),
      ← List.cons_append, List.reverse_append, List.reverse_singleton, List.singleton_append,
      List.dropWhile_cons, if_pos (by decide), hfirst _ (by simpa [and_comm] using hquote),
      List.reverse_reverse]

/-- A token with a blank in it is a text in double quotes, or a blank in single quotes. -/
theorem quoted_or_single_of_any_isBlank {cs : List Char} (hshape : Shape cs)
    (hblank : cs.any isBlank = true) :
    isQuoted cs = true ∨ ∃ c, cs = ['\'', c, '\''] ∧ isBlank c = true := by
  cases hshape with
  | double hne hquote => exact .inl (isQuoted_quoted hne hquote)
  | single c =>
    have hmark : isBlank '\'' = false := by decide
    exact .inr ⟨c, rfl, by simpa [hmark] using hblank⟩
  | pair => exact absurd hblank (by decide)
  | bare _ hbare =>
    obtain ⟨c, hc, hblank⟩ := List.any_eq_true.1 hblank
    rw [isBlank_of_isBareChar (hbare c hc)] at hblank
    cases hblank

/-! ## Names -/

theorem splitBlanks_of_nil {cs : List Char} (h : cs.dropWhile (!isBlank ·) = []) :
    splitBlanks cs = [cs.takeWhile (!isBlank ·)] := by
  rw [splitBlanks]
  split
  · rfl
  · rename_i hcons
    exact absurd (h.symm.trans hcons) (by simp)

theorem splitBlanks_of_cons {cs rest : List Char} {c : Char}
    (h : cs.dropWhile (!isBlank ·) = c :: rest) :
    splitBlanks cs = cs.takeWhile (!isBlank ·) :: splitBlanks (trimLeft rest) := by
  rw [splitBlanks]
  split
  · rename_i hnil
    exact absurd (h.symm.trans hnil) (by simp)
  · rename_i hcons
    cases h.symm.trans hcons
    rfl

theorem mem_of_mem_splitBlanks {cs piece : List Char} {c : Char} (h : piece ∈ splitBlanks cs)
    (hc : c ∈ piece) : c ∈ cs := by
  induction cs using splitBlanks.induct with
  | case1 cs ih =>
    cases hdrop : cs.dropWhile (!isBlank ·) with
    | nil =>
      rw [splitBlanks_of_nil hdrop, List.mem_singleton] at h
      subst h
      exact (List.takeWhile_sublist _).subset hc
    | cons d rest =>
      rw [splitBlanks_of_cons hdrop] at h
      rcases List.mem_cons.1 h with rfl | h
      · exact (List.takeWhile_sublist _).subset hc
      · have hrest : c ∈ trimLeft rest := ih d rest hdrop h
        have hmem : c ∈ d :: rest :=
          List.mem_cons_of_mem _ ((List.dropWhile_sublist _).subset hrest)
        rw [← hdrop] at hmem
        exact (List.dropWhile_sublist _).subset hmem

theorem isBlank_of_mem_splitBlanks {cs piece : List Char} {c : Char} (h : piece ∈ splitBlanks cs)
    (hc : c ∈ piece) : isBlank c = false := by
  have hvisible : ∀ cs : List Char, c ∈ cs.takeWhile (!isBlank ·) → isBlank c = false :=
    fun cs hc => by simpa using List.mem_takeWhile_imp hc
  induction cs using splitBlanks.induct with
  | case1 cs ih =>
    cases hdrop : cs.dropWhile (!isBlank ·) with
    | nil =>
      rw [splitBlanks_of_nil hdrop, List.mem_singleton] at h
      exact hvisible cs (h ▸ hc)
    | cons d rest =>
      rw [splitBlanks_of_cons hdrop] at h
      rcases List.mem_cons.1 h with rfl | h
      · exact hvisible cs hc
      · exact ih d rest hdrop h

/-- Only blanks are lost when a text is cut. -/
theorem exists_mem_splitBlanks {cs : List Char} {c : Char} (hc : c ∈ cs)
    (hvisible : isBlank c = false) : ∃ piece ∈ splitBlanks cs, c ∈ piece := by
  induction cs using splitBlanks.induct with
  | case1 cs ih =>
    rw [← List.takeWhile_append_dropWhile (p := (!isBlank ·)) (l := cs), List.mem_append] at hc
    cases hdrop : cs.dropWhile (!isBlank ·) with
    | nil =>
      rw [hdrop] at hc
      rw [splitBlanks_of_nil hdrop]
      exact ⟨_, List.mem_cons_self, hc.resolve_right List.not_mem_nil⟩
    | cons d rest =>
      rw [hdrop] at hc
      rw [splitBlanks_of_cons hdrop]
      rcases hc with hc | hc
      · exact ⟨_, List.mem_cons_self, hc⟩
      · have hcut : isBlank d = true := by
          have hhead := List.head?_dropWhile_not (!isBlank ·) cs
          rw [hdrop] at hhead
          simpa using hhead
        have hrest : c ∈ rest := by
          rcases List.mem_cons.1 hc with rfl | hc
          · exact absurd (hcut.symm.trans hvisible) (by decide)
          · exact hc
        obtain ⟨piece, hpiece, hmem⟩ := ih d rest hdrop (mem_trimLeft hrest hvisible)
        exact ⟨piece, List.mem_cons_of_mem _ hpiece, hmem⟩

theorem splitBlanks_ne_nil (cs : List Char) : splitBlanks cs ≠ [] := by
  cases hdrop : cs.dropWhile (!isBlank ·) with
  | nil =>
    rw [splitBlanks_of_nil hdrop]
    exact List.cons_ne_nil _ _
  | cons c rest =>
    rw [splitBlanks_of_cons hdrop]
    exact List.cons_ne_nil _ _

/-- A text is cut in two at every blank in it. -/
theorem two_le_length_splitBlanks {cs : List Char} (h : cs.any isBlank = true) :
    2 ≤ (splitBlanks cs).length := by
  cases hdrop : cs.dropWhile (!isBlank ·) with
  | nil =>
    obtain ⟨c, hc, hblank⟩ := List.any_eq_true.1 h
    have hvisible := List.dropWhile_eq_nil_iff.1 hdrop c hc
    rw [hblank] at hvisible
    cases hvisible
  | cons c rest =>
    rw [splitBlanks_of_cons hdrop, List.length_cons]
    have := List.length_pos_iff.2 (splitBlanks_ne_nil (trimLeft rest))
    omega

theorem splitBlanks_of_forall {cs : List Char} (h : ∀ c ∈ cs, isBlank c = false) :
    splitBlanks cs = [cs] := by
  have hvisible : ∀ c ∈ cs, (!isBlank c) = true := fun c hc => by rw [h c hc]; rfl
  have htake : (cs ++ []).takeWhile (!isBlank ·) = cs ++ [] :=
    List.takeWhile_append_of_pos hvisible
  have hdrop : (cs ++ []).dropWhile (!isBlank ·) = [] := List.dropWhile_append_of_pos hvisible
  rw [List.append_nil] at htake hdrop
  rw [splitBlanks_of_nil hdrop, htake]

theorem mem_intercalate {α : Type} {sep : List α} {parts : List (List α)} {a : α}
    (h : a ∈ sep.intercalate parts) : a ∈ sep ∨ ∃ part ∈ parts, a ∈ part := by
  induction parts with
  | nil => simp at h
  | cons part parts ih =>
    cases parts with
    | nil =>
      rw [List.intercalate_singleton] at h
      exact .inr ⟨part, List.mem_cons_self, h⟩
    | cons part' parts =>
      rw [List.intercalate_cons_cons, List.append_assoc, List.mem_append, List.mem_append] at h
      rcases h with h | h | h
      · exact .inr ⟨part, List.mem_cons_self, h⟩
      · exact .inl h
      · exact (ih h).imp_right fun ⟨q, hq, haq⟩ => ⟨q, List.mem_cons_of_mem _ hq, haq⟩

theorem mem_intercalate_of_mem {α : Type} {sep part : List α} {parts : List (List α)} {a : α}
    (hpart : part ∈ parts) (ha : a ∈ part) : a ∈ sep.intercalate parts := by
  induction parts with
  | nil => cases hpart
  | cons part' parts ih =>
    cases parts with
    | nil =>
      rw [List.intercalate_singleton, ← List.mem_singleton.1 hpart]
      exact ha
    | cons part'' parts =>
      rw [List.intercalate_cons_cons, List.mem_append]
      rcases List.mem_cons.1 hpart with rfl | hpart
      · exact .inl (List.mem_append_left _ ha)
      · exact .inr (ih hpart)

/-- The name made from several words has no characters but theirs and underscores. -/
theorem mem_phraseName {cs : List Char} {c : Char}
    (h : c ∈ (phraseName ((splitBlanks cs).map String.ofList)).toList) : c = '_' ∨ c ∈ cs := by
  rw [phraseName, String.toList_intercalate, List.map_map] at h
  rcases mem_intercalate h with h | ⟨part, hpart, hc⟩
  · exact .inl (List.mem_singleton.1 h)
  · obtain ⟨piece, hpiece, rfl⟩ := List.mem_map.1 hpart
    rw [Function.comp_apply, String.toList_ofList] at hc
    exact .inr (mem_of_mem_splitBlanks hpiece hc)

/-- All characters of the words are in it. -/
theorem mem_phraseName_of_mem {cs : List Char} {c : Char} (hc : c ∈ cs)
    (hvisible : isBlank c = false) :
    c ∈ (phraseName ((splitBlanks cs).map String.ofList)).toList := by
  obtain ⟨piece, hpiece, hmem⟩ := exists_mem_splitBlanks hc hvisible
  rw [phraseName, String.toList_intercalate]
  refine mem_intercalate_of_mem (List.mem_map_of_mem (List.mem_map_of_mem hpiece)) ?_
  rwa [String.toList_ofList]

/-! ## Words -/

theorem lowercaseAfter_ne_nil (before : List Char) (c : Char) (cs : List Char) :
    lowercaseAfter before (c :: cs) ≠ [] := by
  unfold lowercaseAfter
  split <;> simp_all

theorem lowercase_ofList_eq_empty_iff {cs : List Char} :
    lowercase (String.ofList cs) = "" ↔ cs = [] := by
  rw [lowercase, String.toList_ofList]
  constructor
  · intro h
    cases cs with
    | nil => rfl
    | cons c cs =>
      have hnil : lowercaseAfter [] (c :: cs) = [] := by
        have := congrArg String.toList h
        rwa [String.toList_ofList] at this
      exact absurd hnil (lowercaseAfter_ne_nil _ _ _)
  · rintro rfl
    rfl

/-- A keyword derives its words, and the empty pieces at its ends derive nothing. -/
theorem keywordTerminals_eq (body : List Char) :
    keywordTerminals body = phraseTerminals ((splitBlanks body).map String.ofList) := by
  rw [keywordTerminals, phraseTerminals]
  induction splitBlanks body with
  | nil => rfl
  | cons piece pieces ih =>
    rw [List.map_cons, List.flatMap_cons, wordTerminals, List.filter_cons]
    cases piece with
    | nil => rw [if_pos (lowercase_ofList_eq_empty_iff.2 rfl), ← ih]; rfl
    | cons c cs =>
      rw [if_neg (mt lowercase_ofList_eq_empty_iff.1 (List.cons_ne_nil c cs)), ← ih]
      rfl

/-! ## Meanings -/

section

variable {config : Config}

/-- What the meaning of a token without a blank can be, and why. -/
inductive ReferenceCase (config : Config) (g : Grammar) (token : String) : Meaning → Prop
  | renamed {target : String} (h : config.renames.get? token = some target) :
      ReferenceCase config g token ⟨.rule target, none, none⟩
  | literal (h : isPunctuation token.toList = true ∨ isOperator token.toList = true ∨
      isQuoted token.toList = true) : ReferenceCase config g token ⟨.literal token, none, none⟩
  | renamedWord {target : String}
      (h : config.renames.get? (String.ofList (unquote token.toList)) = some target) :
      ReferenceCase config g token ⟨.rule target, none, none⟩
  | keyword (hquoted : isQuoted token.toList = true) :
      ReferenceCase config g token ⟨.rule (keywordName (unquote token.toList)), none,
        some (keywordName (unquote token.toList), String.ofList (unquote token.toList))⟩
  | override {text : String} (h : config.referenceOverrides.get? token = some text) :
      ReferenceCase config g token ⟨.fixed text, none, none⟩
  | bare (hrenames : token ∉ config.renames.keys)
      (hoverrides : token ∉ config.referenceOverrides.keys)
      (hpunctuation : isPunctuation token.toList = false)
      (hquoted : isQuoted token.toList = false) :
      ReferenceCase config g token
        ⟨if Grammar.isOptional g token then .optionalRule token else .rule token, none, none⟩

theorem referenceCase (config : Config) (g : Grammar) (token : String) :
    ReferenceCase config g token (reference config g token) := by
  generalize hm : reference config g token = m
  unfold reference at hm
  split at hm
  · rename_i target htarget
    exact hm ▸ .renamed htarget
  · rename_i hkept
    dsimp only at hm
    split at hm
    · rename_i hmark
      rw [Bool.or_eq_true] at hmark
      exact hm ▸ .literal (hmark.imp_right .inl)
    · rename_i hmark
      rw [Bool.or_eq_true, not_or] at hmark
      split at hm
      · rename_i hquoted
        split at hm
        · exact hm ▸ .literal (.inr (.inr hquoted))
        · split at hm
          · rename_i target htarget
            exact hm ▸ .renamedWord htarget
          · exact hm ▸ .keyword hquoted
      · rename_i hquoted
        rw [bareSymbol] at hm
        split at hm
        · rename_i text htext
          exact hm ▸ .override htext
        · rename_i hoverride
          exact hm ▸ .bare (Table.get?_eq_none_iff.1 hkept) (Table.get?_eq_none_iff.1 hoverride)
            (Bool.eq_false_iff.2 hmark.1) (Bool.eq_false_iff.2 hquoted)

/-- What stands for itself has a quote in it. -/
theorem eq_of_literal_reference {g : Grammar} {token text : String}
    (h : (reference config g token).symbol = .literal text) :
    text = token ∧ ∃ mark ∈ ['\'', '"'], mark ∈ token.toList := by
  have hcase := referenceCase config g token
  generalize reference config g token = m at hcase h
  cases hcase with
  | literal hmark =>
    cases h
    refine ⟨rfl, ?_⟩
    rcases hmark with hmark | hmark | hmark
    · exact ⟨'\'', by decide, mem_of_startsEnclosed hmark⟩
    · exact ⟨'"', by decide, mem_of_startsEnclosed hmark⟩
    · exact ⟨'"', by decide, mem_of_startsEnclosed hmark⟩
  | bare _ _ _ _ =>
    dsimp only at h
    split at h <;> cases h
  | _ => cases h

/-- An expression of the configuration is that of the token. -/
theorem get?_of_fixed_reference {g : Grammar} {token text : String}
    (h : (reference config g token).symbol = .fixed text) :
    config.referenceOverrides.get? token = some text := by
  have hcase := referenceCase config g token
  generalize reference config g token = m at hcase h
  cases hcase with
  | override htext =>
    cases h
    exact htext
  | bare _ _ _ _ =>
    dsimp only at h
    split at h <;> cases h
  | _ => cases h

/-- Only a token with a blank inside has a helper. -/
theorem phrase_reference (g : Grammar) (token : String) :
    (reference config g token).phrase = none := by
  have hcase := referenceCase config g token
  generalize reference config g token = m at hcase ⊢
  cases hcase <;> rfl

/-- The symbol of a token is that of the token itself or of the name of its helper. -/
theorem exists_symbol_meaning_eq (config : Config) (g : Grammar) (t : String) :
    ∃ token, (meaning config g t).symbol = (reference config g token).symbol := by
  rw [meaning]
  split
  · exact ⟨_, rfl⟩
  · exact ⟨t, rfl⟩

theorem words_of_phrase_meaning {g : Grammar} {token name : String} {ws : List String}
    (hphrase : (meaning config g token).phrase = some (name, ws)) :
    token.toList.any isBlank = true ∧ ws = phraseWords token.toList ∧ name = phraseName ws := by
  rw [meaning] at hphrase
  split at hphrase
  · rename_i hblank
    cases hphrase
    exact ⟨hblank, rfl, rfl⟩
  · rw [phrase_reference] at hphrase
    cases hphrase

theorem phrase_meaning {g : Grammar} {token name : String} {ws : List String}
    (hphrase : (meaning config g token).phrase = some (name, ws)) :
    token.toList.any isBlank = true ∧ name = phraseName (phraseWords token.toList) := by
  obtain ⟨hblank, rfl, rfl⟩ := words_of_phrase_meaning hphrase
  exact ⟨hblank, rfl⟩

end

/-- The tables that change what tokens mean are empty. -/
structure KeepsReferences (config : Config) : Prop where
  renames : config.renames.entries = []
  referenceOverrides : config.referenceOverrides.entries = []

variable {config : Config} {g : Grammar}

theorem get?_of_entries_eq_nil {α : Type} {t : Table α} (h : t.entries = []) (key : String) :
    t.get? key = none := by
  rw [Table.get?, h]
  rfl

/-- A name without quotes is a reference. -/
theorem reference_name (hconfig : KeepsReferences config) {name : String}
    (hsingle : '\'' ∉ name.toList) (hdouble : '"' ∉ name.toList) :
    reference config g name =
      ⟨if Grammar.isOptional g name then .optionalRule name else .rule name, none, none⟩ := by
  rw [reference, get?_of_entries_eq_nil hconfig.renames]
  dsimp only
  rw [isPunctuation, isOperator, isQuoted, startsEnclosed_of_not_mem hsingle,
    startsEnclosed_of_not_mem hdouble, startsEnclosed_of_not_mem hdouble, bareSymbol,
    get?_of_entries_eq_nil hconfig.referenceOverrides]
  rfl

theorem terminals?_bare {token : String} (hbare : ∀ c ∈ token.toList, isBareChar c = true) :
    terminals? token = none := by
  rw [terminals?]
  split
  · rename_i heq
    exact absurd (hbare '"' (heq ▸ List.mem_cons_self)) (by decide)
  · rename_i heq
    exact absurd (hbare '\'' (heq ▸ List.mem_cons_self)) (by decide)
  · rfl

theorem tokenKind_bare (hconfig : KeepsReferences config) {token : String}
    (hbare : ∀ c ∈ token.toList, isBareChar c = true) :
    TokenKind g token (meaning config g token) := by
  have hdouble : '"' ∉ token.toList := fun h => absurd (hbare _ h) (by decide)
  have hsingle : '\'' ∉ token.toList := fun h => absurd (hbare _ h) (by decide)
  have hblank : token.toList.any isBlank = false := by
    rw [List.any_eq_false]
    intro c hc
    rw [isBlank_of_isBareChar (hbare c hc)]
    exact Bool.false_ne_true
  refine .bare (terminals?_bare hbare) ?_ ?_
  · rw [keywordRule?]
    split
    · rename_i heq
      exact absurd (heq ▸ List.mem_cons_self) hdouble
    · rfl
  · rw [meaning, hblank, if_neg Bool.false_ne_true, reference_name hconfig hsingle hdouble]

theorem tokenKind_single (hconfig : KeepsReferences config) {token : String} {c : Char}
    (htoken : token.toList = ['\'', c, '\'']) (hquote : c ≠ '\'') (hblank : isBlank c = false) :
    TokenKind g token (meaning config g token) := by
  refine .mark ?_ ?_ ?_
  · rw [terminals?, htoken]
    rfl
  · rw [keywordRule?, htoken]
    rfl
  · have hvisible : token.toList.any isBlank = false := by
      rw [htoken]
      simp [hblank, show isBlank '\'' = false by decide]
    have hmark : isPunctuation token.toList = true := by
      rw [htoken]
      simp [isPunctuation, startsEnclosed, hquote]
    rw [meaning, hvisible, if_neg Bool.false_ne_true, reference,
      get?_of_entries_eq_nil hconfig.renames]
    dsimp only
    rw [hmark, Bool.true_or, if_pos rfl]

/-- The meaning of a text in double quotes without a blank that is not renamed. What stands between
the quotes may be. -/
theorem reference_quoted_of_get? {token : String} {body : List Char}
    (htoken : token.toList = '"' :: (body ++ ['"'])) (hne : body ≠ []) (hquote : '"' ∉ body)
    (hkept : config.renames.get? token = none) :
    reference config g token =
      if body.all isOperatorChar || !body.head?.any isNameChar then ⟨.literal token, none, none⟩
      else
        match config.renames.get? (String.ofList body) with
        | some target => ⟨.rule target, none, none⟩
        | none =>
          ⟨.rule (keywordName body), none, some (keywordName body, String.ofList body)⟩ := by
  have hpunctuation : isPunctuation ('"' :: (body ++ ['"'])) = false := rfl
  rw [reference, hkept]
  dsimp only
  rw [htoken, hpunctuation, isOperator_quoted hne hquote, isQuoted_quoted hne hquote,
    unquote_quoted hquote, Bool.false_or, if_pos rfl]
  cases body.all isOperatorChar <;> rfl

/-- The meaning of a text in double quotes without a blank. -/
theorem reference_quoted (hconfig : KeepsReferences config) {token : String}
    {body : List Char} (htoken : token.toList = '"' :: (body ++ ['"'])) (hne : body ≠ [])
    (hquote : '"' ∉ body) :
    reference config g token =
      if body.all isOperatorChar || !body.head?.any isNameChar then ⟨.literal token, none, none⟩
      else ⟨.rule (keywordName body), none, some (keywordName body, String.ofList body)⟩ := by
  rw [reference_quoted_of_get? htoken hne hquote (get?_of_entries_eq_nil hconfig.renames token),
    get?_of_entries_eq_nil hconfig.renames]

/-- The rule made from a text in double quotes. -/
theorem keywordRule?_quoted {token : String} {body : List Char}
    (htoken : token.toList = '"' :: (body ++ ['"'])) :
    keywordRule? token = if isMark body then none else some (keywordRuleName body) := by
  rw [keywordRule?, htoken]
  change (if isMark (body ++ ['"']).dropLast then none
    else some (keywordRuleName (body ++ ['"']).dropLast)) = _
  rw [List.dropLast_concat]

/-- What a text in double quotes derives. -/
theorem terminals?_quoted {token : String} {body : List Char}
    (htoken : token.toList = '"' :: (body ++ ['"'])) :
    terminals? token =
      if isMark body then some [.mark (unquoted token)] else some (keywordTerminals body) := by
  rw [terminals?, htoken]
  change (if isMark (body ++ ['"']).dropLast then _
    else some (keywordTerminals (body ++ ['"']).dropLast)) = _
  rw [List.dropLast_concat]

/-- The name of a helper holds no quotes, so it is taken for a reference to a rule. -/
theorem reference_phraseName (hconfig : KeepsReferences config) {body : List Char}
    (hquote : '"' ∉ body) (hsingle : '\'' ∉ body) :
    reference config g (phraseName ((splitBlanks body).map String.ofList)) =
      ⟨if Grammar.isOptional g (phraseName ((splitBlanks body).map String.ofList)) then
          .optionalRule (phraseName ((splitBlanks body).map String.ofList))
        else .rule (phraseName ((splitBlanks body).map String.ofList)), none, none⟩ := by
  apply reference_name hconfig
  · intro h
    rcases mem_phraseName h with h | h
    · exact absurd h (by decide)
    · exact hsingle h
  · intro h
    rcases mem_phraseName h with h | h
    · exact absurd h (by decide)
    · exact hquote h

/-- Every text in double quotes is of one of the kinds. -/
theorem quotedKind_double (hconfig : KeepsReferences config) {token : String}
    {body : List Char} (htoken : token.toList = '"' :: (body ++ ['"'])) (hne : body ≠ [])
    (hquote : '"' ∉ body) (hsingle : '\'' ∉ body) :
    QuotedKind g token (meaning config g token) := by
  have hrule := keywordRule?_quoted htoken
  have hderives := terminals?_quoted htoken
  have hany : token.toList.any isBlank = body.any isBlank := by
    rw [htoken, any_isBlank_quoted _ (by decide)]
  have hinside : ∀ c ∈ body, c ∈ token.toList := by
    intro c hc
    rw [htoken]
    exact List.mem_cons_of_mem _ (List.mem_append_left _ hc)
  rw [meaning, hany]
  cases hblank : body.any isBlank with
  | true =>
    have hwords : ∀ word ∈ (splitBlanks body).map String.ofList, IsWordOf token word := by
      rw [List.forall_mem_map]
      intro piece hpiece c hc
      rw [String.toList_ofList] at hc
      exact ⟨hinside c (mem_of_mem_splitBlanks hpiece hc), isBlank_of_mem_splitBlanks hpiece hc⟩
    have hmark : isMark body = false := by rw [isMark, hblank]; rfl
    rw [hmark, if_neg Bool.false_ne_true] at hrule hderives
    rw [keywordRuleName, hblank, if_pos rfl] at hrule
    apply QuotedKind.phrase _ _ (hany.trans hblank) hwords
      (hderives.trans (congrArg some (keywordTerminals_eq body))) hrule
    rw [if_pos rfl, phraseWords, htoken, unquote_quoted hquote]
    dsimp only
    rw [reference_phraseName hconfig hquote hsingle]
  | false =>
    rw [if_neg Bool.false_ne_true, reference_quoted hconfig htoken hne hquote]
    have hmark : isMark body = (body.all isOperatorChar || !body.head?.any isNameChar) := by
      rw [isMark, hblank]
      rfl
    rw [← hmark]
    cases hm : isMark body with
    | true =>
      rw [hm, if_pos rfl] at hrule hderives
      exact .mark hderives hrule rfl
    | false =>
      rw [hm, if_neg Bool.false_ne_true] at hrule hderives
      rw [keywordRuleName, hblank, if_neg Bool.false_ne_true] at hrule
      have hvisible : ∀ c ∈ body, isBlank c = false := by
        intro c hc
        exact Bool.eq_false_iff.2 (List.any_eq_false.1 hblank c hc)
      have hword : IsWordOf token (String.ofList body) := by
        intro c hc
        rw [String.toList_ofList] at hc
        exact ⟨hinside c hc, hvisible c hc⟩
      rw [keywordTerminals_eq, splitBlanks_of_forall hvisible] at hderives
      exact .keyword (keywordName body) (String.ofList body) (hany.trans hblank) hword hderives
        hrule rfl

theorem tokenKind_double (hconfig : KeepsReferences config) {token : String}
    {body : List Char} (htoken : token.toList = '"' :: (body ++ ['"'])) (hne : body ≠ [])
    (hquote : '"' ∉ body) (hsingle : '\'' ∉ body)
    (hfresh : ∀ name, keywordRule? token = some name → name ∉ g.keys) :
    TokenKind g token (meaning config g token) := by
  cases quotedKind_double (g := g) hconfig htoken hne hquote hsingle with
  | mark hderives hrule hm => exact .mark hderives hrule hm
  | keyword name word _ hword hderives hrule hm => exact .keyword name word hword hderives hrule hm
  | phrase name words _ hwords hderives hrule hm =>
    have hrequired : Grammar.isOptional g name = false := by
      rw [Grammar.isOptional, Table.get?_eq_none_iff.2 (hfresh name hrule)]
      rfl
    refine .phrase name words hwords hderives hrule (hm.trans ?_)
    rw [hrequired, if_neg Bool.false_ne_true]

/-- Every token of a listing is of one of the kinds, provided that the rule made from it is not
called like a production. -/
theorem tokenKind_meaning (hconfig : KeepsReferences config) {token : String}
    (hshape : Shape token.toList) (hplain : IsPlainToken token = true)
    (hfresh : ∀ name, keywordRule? token = some name → name ∉ g.keys) :
    TokenKind g token (meaning config g token) := by
  generalize htoken : token.toList = cs at hshape
  rw [IsPlainToken, htoken] at hplain
  cases hshape with
  | @double body hne hquote =>
    have hsingle : '\'' ∉ body := by
      intro h
      simp [h] at hplain
    exact tokenKind_double hconfig htoken hne hquote hsingle hfresh
  | single c =>
    simp only [Bool.and_eq_true, bne_iff_ne, Bool.not_eq_true'] at hplain
    exact tokenKind_single hconfig htoken hplain.1 hplain.2
  | pair => exact absurd hplain (by decide)
  | bare hne hbare =>
    subst htoken
    exact tokenKind_bare hconfig hbare

/-! ## Marks -/

theorem quotedText?_eq_unquoted {token : String} {mark : Char}
    (htoken : token.toList = mark :: (body ++ [mark])) (hmark : mark = '\'' ∨ mark = '"')
    (hquote : mark ∉ body) (hescape : '\\' ∉ token.toList) (hvisible : body.any isBlank = false) :
    quotedText? token = some (unquoted token) := by
  have hbody : (token.toList.drop 1).dropLast = body := by
    rw [htoken, List.drop_one, List.tail_cons, List.dropLast_concat]
  rw [unquoted, hbody]
  refine quotedText?_of_enclosed htoken hmark fun c hc hmem => ?_
  have hinside : c ∈ token.toList := by
    rw [htoken]
    exact List.mem_cons_of_mem _ (List.mem_append_left _ hc)
  have hblank : isBlank c = false := Bool.eq_false_iff.2 (List.any_eq_false.1 hvisible c hc)
  simp only [List.mem_cons, List.not_mem_nil, or_false] at hmem
  rcases hmem with rfl | rfl | rfl | rfl
  · exact hquote hc
  · exact hescape hinside
  · exact absurd hblank (by decide)
  · exact absurd hblank (by decide)

/-- A mark without an escape is read as it is meant in the listing. -/
theorem quotedText?_of_mark {token : String} (hshape : Shape token.toList)
    (hplain : IsPlainToken token = true) (hescape : '\\' ∉ token.toList)
    (hrule : keywordRule? token = none) {u : List Terminal} (hu : terminals? token = some u) :
    quotedText? token = some (unquoted token) := by
  generalize htoken : token.toList = cs at hshape
  rw [IsPlainToken, htoken] at hplain
  cases hshape with
  | @double body hne hquote =>
    have hmark : isMark body = true := by
      rw [keywordRule?_quoted htoken] at hrule
      split at hrule
      · assumption
      · cases hrule
    rw [isMark, Bool.and_eq_true, Bool.not_eq_true'] at hmark
    exact quotedText?_eq_unquoted htoken (.inr rfl) hquote hescape hmark.1
  | single c =>
    simp only [Bool.and_eq_true, bne_iff_ne, Bool.not_eq_true'] at hplain
    have htoken' : token.toList = '\'' :: ([c] ++ ['\'']) := htoken
    exact quotedText?_eq_unquoted htoken' (.inl rfl) (by simpa using hplain.1.symm) hescape
      (by simpa using hplain.2)
  | pair => exact absurd hplain (by decide)
  | bare hne hbare =>
    subst htoken
    rw [terminals?_bare hbare] at hu
    cases hu

end CqlGlue.EditorGrammar
