import CqlGlue.Proofs.Listing.Expansion
import CqlGlue.Proofs.Listing.KeptLines
import Mathlib.Data.List.Nodup
import Mathlib.Data.Nat.Find

/-!
# Inlining as recursive expansion

Inlining decides by the right-hand side of a line whether anything is substituted in it, and then
substitutes in the whole line. Where no line that is kept has a word left of its separator, both
are the same, and inlining is expanding the lines that are kept. It fails where the expansion of
one of them comes upon a word without a definition.

## Main definitions
* `ExpandsLines` says what inlining gives and what it reports, in terms of expansions.

## Main statements
* `value_run_eq_ok_iff_of_freeLeft` is inlining that succeeds.
* `expandsLines_ofWords` is inlining of words made of word characters.
-/

namespace CqlGlue.Listing

open Text Inliner

section

variable {words lines : List (List Char)} {line left right w v : List Char} {j : Nat}

/-! ## One line -/

/-- Where a word does not stand left of the separator, it stands in the line where it stands on the
right-hand side. -/
theorem hasWord_line (hw : IsWord w) (hcut : splitFirst defines line = some (left, right))
    (hleft : hasWord w left = false) : hasWord w line = hasWord w (trim right) := by
  rw [hasWord_eq_false_iff hw] at hleft
  rw [Bool.eq_iff_iff, hasWord_iff_mem_runs hw, hasWord_iff_mem_runs hw, hw.mem_runs_trim,
    eq_append_of_splitFirst hcut,
    hw.mem_runs_append_append (fun _ => isWordChar_of_mem_defines) (List.cons_ne_nil _ _),
    or_iff_right hleft]

variable (hwords : ∀ w ∈ words, IsWord w) (hfree : FreeLeft words lines)
  (hline : line ∈ keptLines words lines)
include hwords hfree hline

theorem exists_value_inlineLine_eq_substitute :
    ∃ rule, (inlineLine ⟨words⟩ lines line).value =
      (substitute lines rule words line).value.map some := by
  obtain ⟨-, key, value, hsplit, hkey⟩ := mem_keptLines.1 hline
  refine ⟨String.ofList key, value_inlineLine_of_not_mem hsplit hkey fun hvalue w hw => ?_⟩
  obtain ⟨⟨left, right⟩, hcut, heq⟩ := Option.map_eq_some_iff.1 hsplit
  cases heq
  rw [hasWord_line (hwords w hw) hcut (hfree line hline _ hcut w hw)]
  exact hvalue w hw

variable (hdistinct : words.Nodup)
include hdistinct

/-- A line that is kept is expanded. -/
theorem value_inlineLine_eq_ok (h : ∀ j, ¬ Misses words (bodyOf? lines) 0 line j) :
    (inlineLine ⟨words⟩ lines line).value =
      .ok (some (expandFrom words (bodyOf? lines) 0 line)) := by
  obtain ⟨rule, hvalue⟩ := exists_value_inlineLine_eq_substitute hwords hfree hline
  rw [hvalue, value_substitute_of_forall_not_misses hwords hdistinct (List.nil_append words).symm h]
  rfl

/-- The first word without a definition that the expansion comes upon is reported. -/
theorem value_inlineLine_eq_error (h : Misses words (bodyOf? lines) 0 line j)
    (hleast : ∀ i < j, ¬ Misses words (bodyOf? lines) 0 line i) (hv : words[j]? = some v) :
    (inlineLine ⟨words⟩ lines line).value =
      .error (.undefinedProduction (String.ofList v)) := by
  obtain ⟨rule, hvalue⟩ := exists_value_inlineLine_eq_substitute hwords hfree hline
  rw [hvalue,
    value_substitute_of_misses hwords hdistinct (List.nil_append words).symm h hleast hv]
  rfl

end

/-! ## Listings -/

/-- A line end is no word, so a word stands in one of the lines. -/
theorem hasWord_printed_eq_false {w : List Char} {outs : List (List Char)} (hw : IsWord w)
    (h : ∀ line ∈ outs, w ∉ runs line) : hasWord w (outs.flatMap (· ++ ['\n'])) = false := by
  induction outs with
  | nil => rfl
  | cons line outs ih =>
    rw [List.flatMap_cons, List.append_assoc, List.singleton_append,
      hasWord_append_cons hw (by decide), ih fun l hl => h l (List.mem_cons_of_mem _ hl),
      (hasWord_eq_false_iff hw).2 (h line List.mem_cons_self)]
    rfl

/-- Of the lines with a property that depends on a number there is a first one and for it a least
number. -/
theorem exists_first_least {P : List Char → Nat → Prop} {ls : List (List Char)}
    (h : ∃ line ∈ ls, ∃ j, P line j) :
    ∃ before line after j, ls = before ++ line :: after ∧ (∀ l ∈ before, ∀ i, ¬ P l i) ∧
      P line j ∧ ∀ i < j, ¬ P line i := by
  classical
  induction ls with
  | nil =>
    obtain ⟨line, hline, -⟩ := h
    exact absurd hline List.not_mem_nil
  | cons l ls ih =>
    by_cases hl : ∃ j, P l j
    · exact ⟨[], l, ls, Nat.find hl, rfl, List.forall_mem_nil _, Nat.find_spec hl,
        fun i => Nat.find_min hl⟩
    · obtain ⟨line, hline, hj⟩ := h
      have hmem : line ∈ ls := by
        rcases List.mem_cons.1 hline with rfl | hmem
        · exact absurd hj hl
        · exact hmem
      obtain ⟨before, line', after, j, rfl, hbefore, hrest⟩ := ih ⟨line, hmem, hj⟩
      exact ⟨l :: before, line', after, j, rfl,
        List.forall_mem_cons.2 ⟨not_exists.1 hl, hbefore⟩, hrest⟩

theorem toOption_eq_some_iff {α β : Type} {r : Except α β} {b : β} :
    r.toOption = some b ↔ r = .ok b := by
  cases r <;> simp [Except.toOption]

/-- The words as texts. -/
def wordTexts (words : List String) : List (List Char) := words.map String.toList

/-- The lines of a text that are kept. -/
def keptOf (words : List String) (text : String) : List (List Char) :=
  keptLines (wordTexts words) (linesOf text.toList)

/-- What comes in for a word: what its last definition in a text has on the right-hand side. -/
def definedAs? (text : String) : List Char → Option (List Char) := bodyOf? (linesOf text.toList)

/-- Inlining words in a text is expanding the lines that are kept. -/
structure ExpandsLines (words : List String) (text : String) : Prop where
  /-- Inlining fails where the expansion of a line comes upon a word without a definition. -/
  fails : (∃ e, ((ofWords words).run text).value = .error e) ↔
    ∃ line ∈ keptOf words text, ∃ j, Misses (wordTexts words) (definedAs? text) 0 line j
  /-- Of the words that the expansion of the first such line comes upon, the first is reported. -/
  reports : ∀ before line after j w, keptOf words text = before ++ line :: after →
    (∀ l ∈ before, ∀ i, ¬ Misses (wordTexts words) (definedAs? text) 0 l i) →
    Misses (wordTexts words) (definedAs? text) 0 line j →
    (∀ i < j, ¬ Misses (wordTexts words) (definedAs? text) 0 line i) → words[j]? = some w →
    ((ofWords words).run text).value = .error (.undefinedProduction w)
  /-- Otherwise the expansions of the lines that are kept come out in order. -/
  gives : (∀ line ∈ keptOf words text, ∀ j,
      ¬ Misses (wordTexts words) (definedAs? text) 0 line j) →
    ((ofWords words).run text).value =
      .ok (printed ((keptOf words text).map (expandFrom (wordTexts words) (definedAs? text) 0)))
  /-- No word is left over where definitions mention later words only. -/
  leavesNone : MentionsLater (wordTexts words) (definedAs? text) →
    ∀ out, ((ofWords words).run text).value = .ok out →
      ∀ w ∈ words, hasWord w.toList out.toList = false
  /-- The order of the words makes no difference where no definition mentions a word. -/
  anyOrder : (∀ w ∈ words, ∀ body, definedAs? text w.toList = some body →
      ∀ v ∈ words, hasWord v.toList body = false) →
    ∀ others, others.Perm words →
      ((ofWords others).run text).value.toOption = ((ofWords words).run text).value.toOption

variable {words : List String} {text out : String}

theorem nodup_wordTexts (h : words.Nodup) : (wordTexts words).Nodup :=
  List.Nodup.map (fun _ _ h => String.toList_inj.1 h) h

theorem isWord_of_mem_wordTexts (h : ∀ w ∈ words, IsWord w.toList) :
    ∀ w ∈ wordTexts words, IsWord w := by
  intro w hw
  obtain ⟨word, hword, rfl⟩ := List.mem_map.1 hw
  exact h word hword

section

variable (hwords : ∀ w ∈ words, IsWord w.toList) (hdistinct : words.Nodup)
  (hfree : FreeLeft (wordTexts words) (linesOf text.toList))
include hwords hdistinct hfree

/-- A word without a definition that the expansion of the first such line comes upon first. -/
theorem value_run_eq_error_of_misses {before after : List (List Char)} {line w : List Char}
    {j : Nat} (hkept : keptOf words text = before ++ line :: after)
    (hbefore : ∀ l ∈ before, ∀ i, ¬ Misses (wordTexts words) (definedAs? text) 0 l i)
    (hline : Misses (wordTexts words) (definedAs? text) 0 line j)
    (hleast : ∀ i < j, ¬ Misses (wordTexts words) (definedAs? text) 0 line i)
    (hw : (wordTexts words)[j]? = some w) :
    ((ofWords words).run text).value = .error (.undefinedProduction (String.ofList w)) := by
  have hword := isWord_of_mem_wordTexts hwords
  have hnodup := nodup_wordTexts hdistinct
  have hmem : ∀ l, l ∈ before ∨ l = line → l ∈ keptOf words text := by
    intro l hl
    rw [hkept, List.mem_append, List.mem_cons]
    exact hl.imp_right .inl
  have hwell : ∀ l ∈ before, ∃ out,
      (inlineLine ⟨wordTexts words⟩ (linesOf text.toList) l).value = .ok (some out) :=
    fun l hl => ⟨_, value_inlineLine_eq_ok hword hfree (hmem l (.inl hl)) hnodup (hbefore l hl)⟩
  rw [words_ofWords hwords]
  exact value_run_eq_error hkept hwell
    (value_inlineLine_eq_error hword hfree (hmem line (.inr rfl)) hnodup hline hleast hw)

theorem value_run_eq_ok_of_forall_not_misses
    (h : ∀ line ∈ keptOf words text, ∀ j,
      ¬ Misses (wordTexts words) (definedAs? text) 0 line j) :
    ((ofWords words).run text).value =
      .ok (printed
        ((keptOf words text).map (expandFrom (wordTexts words) (definedAs? text) 0))) := by
  rw [words_ofWords hwords]
  refine value_run_eq_ok_iff.2 ⟨_, rfl, List.forall₂_map_right_iff.2 (List.forall₂_same.2 ?_)⟩
  intro line hline
  exact value_inlineLine_eq_ok (isWord_of_mem_wordTexts hwords) hfree hline
    (nodup_wordTexts hdistinct) (h line hline)

theorem exists_value_run_eq_error_iff :
    (∃ e, ((ofWords words).run text).value = .error e) ↔
      ∃ line ∈ keptOf words text, ∃ j, Misses (wordTexts words) (definedAs? text) 0 line j := by
  constructor
  · rintro ⟨e, he⟩
    by_contra hnone
    simp only [not_exists, not_and] at hnone
    rw [value_run_eq_ok_of_forall_not_misses hwords hdistinct hfree hnone] at he
    cases he
  · intro h
    obtain ⟨before, line, after, j, hkept, hbefore, hline, hleast⟩ := exists_first_least h
    obtain ⟨-, w, hw, -⟩ := id hline
    exact ⟨_, value_run_eq_error_of_misses hwords hdistinct hfree hkept hbefore hline hleast hw⟩

/-- Inlining succeeds where the expansions come upon no word without a definition. -/
theorem value_run_eq_ok_iff_of_freeLeft :
    ((ofWords words).run text).value = .ok out ↔
      (∀ line ∈ keptOf words text, ∀ j,
        ¬ Misses (wordTexts words) (definedAs? text) 0 line j) ∧
      out = printed
        ((keptOf words text).map (expandFrom (wordTexts words) (definedAs? text) 0)) := by
  constructor
  · intro hrun
    have hnone : ∀ line ∈ keptOf words text, ∀ j,
        ¬ Misses (wordTexts words) (definedAs? text) 0 line j := by
      intro line hline j hmiss
      obtain ⟨e, he⟩ := (exists_value_run_eq_error_iff hwords hdistinct hfree).2
        ⟨line, hline, j, hmiss⟩
      rw [hrun] at he
      cases he
    rw [value_run_eq_ok_of_forall_not_misses hwords hdistinct hfree hnone] at hrun
    cases hrun
    exact ⟨hnone, rfl⟩
  · rintro ⟨hnone, rfl⟩
    exact value_run_eq_ok_of_forall_not_misses hwords hdistinct hfree hnone

/-- Where definitions mention later words only, no word is left over. -/
theorem hasWord_eq_false_of_mentionsLater
    (hlater : MentionsLater (wordTexts words) (definedAs? text))
    (hrun : ((ofWords words).run text).value = .ok out) {w : String} (hw : w ∈ words) :
    hasWord w.toList out.toList = false := by
  have hword := isWord_of_mem_wordTexts hwords
  have hnodup := nodup_wordTexts hdistinct
  have hmem : w.toList ∈ wordTexts words := List.mem_map_of_mem hw
  obtain ⟨hnone, rfl⟩ := (value_run_eq_ok_iff_of_freeLeft hwords hdistinct hfree).1 hrun
  rw [printed, String.toList_ofList]
  refine hasWord_printed_eq_false (hwords w hw) fun line hline => ?_
  obtain ⟨line, hkept, rfl⟩ := List.mem_map.1 hline
  exact not_mem_runs_expandFrom hword hnodup hlater (fun _ _ _ _ => Nat.zero_le _)
    (hnone line hkept) hmem

/-- Where no definition mentions a word, the order of the words makes no difference to what is
inlined and to whether inlining fails. -/
theorem toOption_value_run_eq_of_perm {others : List String} (hperm : others.Perm words)
    (hplain : ∀ w ∈ words, ∀ body, definedAs? text w.toList = some body →
      ∀ v ∈ words, hasWord v.toList body = false) :
    ((ofWords others).run text).value.toOption = ((ofWords words).run text).value.toOption := by
  have hmem : ∀ w, w ∈ wordTexts others ↔ w ∈ wordTexts words := fun w => (hperm.map _).mem_iff
  have hword := isWord_of_mem_wordTexts hwords
  have hplainWords : ∀ w ∈ wordTexts words, ∀ body, definedAs? text w = some body →
      ∀ v ∈ wordTexts words, v ∉ runs body := by
    intro w hw body hbody v hv
    obtain ⟨word, hword', rfl⟩ := List.mem_map.1 hw
    obtain ⟨other, hother, rfl⟩ := List.mem_map.1 hv
    exact (hasWord_eq_false_iff (hwords other hother)).1
      (hplain word hword' body hbody other hother)
  have hplainOthers : ∀ w ∈ wordTexts others, ∀ body, definedAs? text w = some body →
      ∀ v ∈ wordTexts others, v ∉ runs body := fun w hw body hbody v hv =>
    hplainWords w ((hmem w).1 hw) body hbody v ((hmem v).1 hv)
  have hwordsOthers : ∀ w ∈ others, IsWord w.toList := fun w hw => hwords w (hperm.mem_iff.1 hw)
  have hdistinctOthers : others.Nodup := hperm.nodup_iff.2 hdistinct
  have hkept : keptOf others text = keptOf words text := keptLines_congr hmem
  have hfreeOthers : FreeLeft (wordTexts others) (linesOf text.toList) := by
    intro line hline p hp w hw
    rw [← keptOf, hkept] at hline
    exact hfree line hline p hp w ((hmem w).1 hw)
  have hexpand : ∀ s, expandFrom (wordTexts others) (definedAs? text) 0 s =
      expandFrom (wordTexts words) (definedAs? text) 0 s := by
    intro s
    rw [expandFrom_of_forall_not_mem (nodup_wordTexts hdistinctOthers) hplainOthers,
      expandFrom_of_forall_not_mem (nodup_wordTexts hdistinct) hplainWords]
    simp only [hmem]
  have hmisses : ∀ s, (∃ j, Misses (wordTexts others) (definedAs? text) 0 s j) ↔
      ∃ j, Misses (wordTexts words) (definedAs? text) 0 s j := by
    intro s
    rw [exists_misses_iff_of_forall_not_mem hplainOthers,
      exists_misses_iff_of_forall_not_mem hplainWords]
    simp only [hmem]
  apply Option.ext
  intro out
  rw [toOption_eq_some_iff, toOption_eq_some_iff,
    value_run_eq_ok_iff_of_freeLeft hwordsOthers hdistinctOthers hfreeOthers,
    value_run_eq_ok_iff_of_freeLeft hwords hdistinct hfree, hkept, funext hexpand]
  simp only [← not_exists, hmisses]

end

/-- Inlining words made of word characters is expanding the lines that are kept. -/
theorem expandsLines_ofWords (words : List String) (text : String)
    (hwords : ∀ w ∈ words, IsWord w.toList) (hdistinct : words.Nodup)
    (hfree : FreeLeft (wordTexts words) (linesOf text.toList)) : ExpandsLines words text where
  fails := exists_value_run_eq_error_iff hwords hdistinct hfree
  reports before line after j w hkept hbefore hline hleast hw := by
    have hword : (wordTexts words)[j]? = some w.toList := by
      rw [wordTexts, List.getElem?_map, hw]
      rfl
    have hrun := value_run_eq_error_of_misses hwords hdistinct hfree hkept hbefore hline hleast
      hword
    rwa [String.ofList_toList] at hrun
  gives := value_run_eq_ok_of_forall_not_misses hwords hdistinct hfree
  leavesNone hlater _ hrun _ hw :=
    hasWord_eq_false_of_mentionsLater hwords hdistinct hfree hlater hrun hw
  anyOrder hplain _ hperm :=
    toOption_value_run_eq_of_perm hwords hdistinct hfree hperm hplain

/-- Words in words, a word that is not defined and not used, and a longer name that begins with a
word. -/
theorem expandsLines_nested :
    ExpandsLines ["outer", "inner", "unused"]
      "outer ::= '(' inner ')'\ninner ::= A | B\nrule ::= outer outer_list\n" ∧
    ((ofWords ["outer", "inner", "unused"]).run
      "outer ::= '(' inner ')'\ninner ::= A | B\nrule ::= outer outer_list\n").value =
      .ok "rule ::= '(' A | B ')' outer_list\n" :=
  ⟨expandsLines_ofWords _ _ (by decide) (by decide) (by decide), by decide⟩

end CqlGlue.Listing
