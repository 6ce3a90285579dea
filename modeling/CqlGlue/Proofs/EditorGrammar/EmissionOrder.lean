import CqlGlue.EditorGrammar.Printer
import CqlGlue.Proofs.EditorGrammar.Drafts
import CqlGlue.Proofs.EditorGrammar.Pattern
import CqlGlue.Proofs.EditorGrammar.Splice
import CqlGlue.Proofs.EditorGrammar.Tokens
import CqlGlue.Proofs.Text.Pieces
import Mathlib.Data.List.Forall2

/-!
# The order of generated rules

The productions that are not suppressed come in the order of the listing. In front of each stand the
helpers of the keywords of several words that are first used in it, in order of use. Rules that are
deleted are left out of this sequence, and definitions of the configuration take the places of the
rules they name. Behind it come the single keywords in order of first use, whether or not the rules
that use them are printed. The generated file holds their definitions in this order and no other
ones behind the fixed rules.

## Main definitions
* `firstUses` are the first members with their names.
* `phraseUses` and `keywordUses` are the keywords of a production in order of use.
* `rulesInOrder` are the rules of productions, each behind its helpers.
* `listedRules` and `listedKeywords` are those of a whole listing.
* `Defines` says what text defines a rule, `PrintsInOrder` what definitions a file holds.

## Main statements
* `entries_rules_run` and `entries_keywords_run` are what visiting productions adds.
* `entries_rules_override` says what definitions of the configuration replace.
* `generatedRules_eq_inOrder` is the sequence of all rules and of their definitions in the file.
-/

namespace CqlGlue.EditorGrammar

open Text Listing

/-! ## Definitions -/

/-- The first member with each name, as far as the name is not known before. -/
def firstUses {α : Type} (known : List String) : List (String × α) → List (String × α)
  | [] => []
  | x :: xs => if x.1 ∈ known then firstUses known xs else x :: firstUses (x.1 :: known) xs

/-- The keywords of several words in a production in order of use: the names of their helpers and
the words. In a listing that was read they are the tokens with a blank in them, apart from a blank
in single quotes (`quoted_or_single_of_any_isBlank`), which counts as well. -/
def phraseUses (p : Production) : List (String × List String) :=
  ((p.choices.flatten.map trimmed).filter (·.toList.any isBlank)).map fun t =>
    (phraseName (phraseWords t.toList), phraseWords t.toList)

/-- The single keywords in a production in order of use, with the names of their rules. -/
def keywordUses (config : Config) (g : Grammar) (p : Production) : List (String × String) :=
  (productionMeanings config g p).filterMap Meaning.keyword

/-- The rule of a keyword of several words. -/
def helperRule (helper : String × List String) : String × RuleBody := (helper.1, .phrase helper.2)

/-- The rules of productions in order, each behind the helpers that it is the first to use. -/
def rulesInOrder (config : Config) (g : Grammar) (known : List String) :
    List (String × Production) → List (String × RuleBody)
  | [] => []
  | e :: es =>
    (firstUses known (phraseUses e.2)).map helperRule ++
      (e.1, productionBody config g e.1 e.2) ::
        rulesInOrder config g ((phraseUses e.2).map Prod.fst ++ known) es

/-- The productions that are not suppressed, with the suppressed ones spliced into them. -/
def keptProductions (config : Config) (g : Grammar) : List (String × Production) :=
  (g.entries.filter fun e => ¬ IsSuppressed config g e.1).map fun e =>
    (e.1, spliceProduction (replacements config g) e.2)

/-- The rules of a listing in order, with none left out. -/
def listedRules (config : Config) (g : Grammar) : List (String × RuleBody) :=
  rulesInOrder config (splice config g) [] (keptProductions config g)

/-- The single keywords of a listing in order of first use. -/
def listedKeywords (config : Config) (g : Grammar) : List (String × String) :=
  firstUses []
    ((keptProductions config g).flatMap fun e => keywordUses config (splice config g) e.2)

/-- What is printed for a rule: the definition of the configuration, if there is one. -/
def printedBody (config : Config) (rule : String × RuleBody) : String :=
  (config.ruleOverrides.get? rule.1).getD rule.2.text

/-- A body as it stands in the wrapper that the configuration has for it: in the place of the first
pair of braces there. -/
inductive StandsIn (body : String) : Option String → String → Prop
  | bare : StandsIn body none body
  | filled {before after : List Char} (h : ¬ ['\x7b', '\x7d'] <:+: before) :
      StandsIn body (some (String.ofList (before ++ ['\x7b', '\x7d'] ++ after)))
        (String.ofList (before ++ body.toList ++ after))
  | kept {w : String} (h : ¬ ['\x7b', '\x7d'] <:+: w.toList) : StandsIn body (some w) w

/-- The text defines the rule: with what the configuration has for its name, else with the words of
a keyword in sequence, or with the alternatives of a production. -/
inductive Defines (config : Config) : String × RuleBody → String → Prop
  | verbatim {name text : String} {body : RuleBody}
      (h : config.ruleOverrides.get? name = some text) :
      Defines config (name, body) (name ++ ": " ++ text)
  | phrase {name : String} {words : List String} (h : config.ruleOverrides.get? name = none) :
      Defines config (name, .phrase words) (name ++ ": " ++ ("$ => prec.left(1, seq(" ++
        String.intercalate ", " (words.map fun word => "CI('" ++ lowercase word ++ "')") ++ "))"))
  | choices {name text : String} {alternatives : List (List Symbol)} {lineBreaks : Bool}
      {wrapper : Option String} (h : config.ruleOverrides.get? name = none)
      (hwrapper : StandsIn (choicePattern alternatives lineBreaks).text wrapper text) :
      Defines config (name, .choices alternatives lineBreaks wrapper)
        (name ++ ": " ++ ("$ => " ++ text))

/-- The file holds the definitions of rules and behind them those of keywords, in order and with
nothing between them. In front of them stand the hand-written rules. -/
def PrintsInOrder (config : Config) (rules : List (String × RuleBody))
    (keywords : List (String × String)) (file : String) : Prop :=
  ∃ frame definitions, List.Forall₂ (Defines config) rules definitions ∧
    file = frame ++ "  rules: \x7b" ++ bootText ++ "    " ++
      String.intercalate ",\n    " (definitions ++
        keywords.map fun k => k.1 ++ ": " ++ ("$ => " ++ ("CI('" ++ lowercase k.2 ++ "')"))) ++
      "\n" ++ "  \x7d\n\x7d);\n\n" ++ caselessFunction ++ "\n"

variable {config : Config} {g : Grammar}

/-! ## First uses -/

section

variable {α : Type} {known known' : List String} {xs : List (String × α)}

/-- What is known counts for the names in use only. -/
theorem firstUses_congr (h : ∀ x ∈ xs, x.1 ∈ known ↔ x.1 ∈ known') :
    firstUses known xs = firstUses known' xs := by
  induction xs generalizing known known' with
  | nil => rfl
  | cons x xs ih =>
    have hrest : ∀ y ∈ xs, y.1 ∈ known ↔ y.1 ∈ known' := fun y hy => h y (List.mem_cons_of_mem _ hy)
    have hnew : firstUses (x.1 :: known) xs = firstUses (x.1 :: known') xs :=
      ih fun y hy => by rw [List.mem_cons, List.mem_cons, hrest y hy]
    rw [firstUses, firstUses, ih hrest, hnew]
    simp only [h x List.mem_cons_self]

theorem firstUses_append (known : List String) (xs ys : List (String × α)) :
    firstUses known (xs ++ ys) =
      firstUses known xs ++ firstUses (xs.map Prod.fst ++ known) ys := by
  induction xs generalizing known with
  | nil => rfl
  | cons x xs ih =>
    rw [List.cons_append, firstUses, firstUses, ih, ih]
    split
    · rename_i hmem
      congr 1
      refine firstUses_congr fun y _ => ?_
      simp only [List.map_cons, List.cons_append, List.mem_cons, List.mem_append]
      constructor
      · exact Or.inr
      · rintro (hy | hy)
        · exact .inr (hy ▸ hmem)
        · exact hy
    · rw [List.cons_append]
      congr 2
      refine firstUses_congr fun y _ => ?_
      simp only [List.map_cons, List.cons_append, List.mem_cons, List.mem_append]
      exact or_left_comm

end

theorem mem_of_mem_firstUses {α : Type} {known : List String} {xs : List (String × α)}
    {x : String × α} (h : x ∈ firstUses known xs) : x ∈ xs := by
  induction xs generalizing known with
  | nil => exact h
  | cons y xs ih =>
    rw [firstUses] at h
    split at h
    · exact List.mem_cons_of_mem _ (ih h)
    · rcases List.mem_cons.1 h with rfl | h
      · exact List.mem_cons_self
      · exact List.mem_cons_of_mem _ (ih h)

/-! ## Uses -/

theorem filterMap_phrase_meanings (config : Config) (g : Grammar) (ts : List String) :
    (meanings config g ts).filterMap Meaning.phrase =
      ((ts.map trimmed).filter (·.toList.any isBlank)).map fun t =>
        (phraseName (phraseWords t.toList), phraseWords t.toList) := by
  rw [meanings, List.filterMap_map]
  induction ts.map trimmed with
  | nil => rfl
  | cons t ts ih =>
    cases hblank : t.toList.any isBlank with
    | true =>
      have hne : t.isEmpty = false := by
        rw [← Bool.not_eq_true, String.isEmpty_iff]
        rintro rfl
        exact absurd hblank (by decide)
      rw [List.filter_cons_of_pos (by simp [hne]), List.filter_cons_of_pos (by simpa using hblank),
        List.filterMap_cons_some (b := (phraseName (phraseWords t.toList), phraseWords t.toList)),
        ih, List.map_cons]
      rw [Function.comp_apply, meaning, if_pos hblank]
    | false =>
      have hnone : (meaning config g t).phrase = none := by
        rw [meaning, hblank, if_neg Bool.false_ne_true, phrase_reference]
      rw [List.filter_cons_of_neg (a := t) (p := fun t : String => t.toList.any isBlank)
        (by simp [hblank]), ← ih, List.filter_cons]
      split
      · exact List.filterMap_cons_none hnone
      · rfl

/-- The helpers that the meanings of a production rely on. -/
theorem filterMap_phrase_productionMeanings (config : Config) (g : Grammar) (p : Production) :
    (productionMeanings config g p).filterMap Meaning.phrase = phraseUses p := by
  rw [productionMeanings, phraseUses]
  induction p.choices with
  | nil => rfl
  | cons choice choices ih =>
    rw [List.map_cons, List.flatten_cons, List.filterMap_append, ih, filterMap_phrase_meanings,
      List.flatten_cons, List.map_append, List.filter_append, List.map_append]

/-- A helper comes from a token with a blank inside. -/
theorem mem_phraseUses {p : Production} {helper : String × List String} :
    helper ∈ phraseUses p ↔ ∃ choice ∈ p.choices, ∃ t ∈ choice,
      (trimmed t).toList.any isBlank = true ∧
        helper = (phraseName (phraseWords (trimmed t).toList), phraseWords (trimmed t).toList) := by
  simp only [phraseUses, List.mem_map, List.mem_filter, List.mem_flatten]
  constructor
  · rintro ⟨_, ⟨⟨t, ⟨choice, hchoice, ht⟩, rfl⟩, hblank⟩, rfl⟩
    exact ⟨choice, hchoice, t, ht, hblank, rfl⟩
  · rintro ⟨choice, hchoice, t, ht, hblank, rfl⟩
    exact ⟨trimmed t, ⟨⟨t, ⟨choice, hchoice, ht⟩, rfl⟩, hblank⟩, rfl⟩

namespace Draft

variable {d : Draft}

/-! ## One meaning -/

/-- Every rule has taken its name. -/
def Named (d : Draft) : Prop := ∀ name ∈ d.rules.keys, name ∈ d.visited

theorem rules_register (h : d.Named) (m : Meaning) :
    (d.register m).rules.entries =
      d.rules.entries ++ (firstUses d.visited m.phrase.toList).map helperRule := by
  rw [register_eq, rules_addKeyword]
  cases m.phrase with
  | none => exact (List.append_nil _).symm
  | some helper =>
    obtain ⟨name, words⟩ := helper
    rw [addPhrase, Option.toList_some, firstUses]
    split
    · exact (List.append_nil _).symm
    · rename_i hfree
      exact Table.entries_insert_of_not_mem fun hkey => hfree (h name hkey)

theorem keywords_register (d : Draft) (m : Meaning) :
    (d.register m).keywords.entries =
      d.keywords.entries ++ firstUses d.keywords.keys m.keyword.toList := by
  rw [register_eq]
  cases m.keyword with
  | none =>
    rw [addKeyword, keywords_addPhrase]
    exact (List.append_nil _).symm
  | some keyword =>
    obtain ⟨name, word⟩ := keyword
    rw [addKeyword, keywords_addPhrase, Option.toList_some, firstUses]
    split
    · rename_i hkey
      rw [Table.insertNew, if_pos (Table.contains_eq_true_iff.2 hkey)]
      exact (List.append_nil _).symm
    · rename_i hkey
      rw [Table.insertNew, if_neg fun hcontains => hkey (Table.contains_eq_true_iff.1 hcontains)]
      exact Table.entries_insert_of_not_mem hkey

theorem Named.register (h : d.Named) (m : Meaning) : (d.register m).Named := by
  intro name hname
  obtain ⟨body, hbody⟩ := Table.mem_keys_iff.1 hname
  rw [mem_visited_register]
  rcases mem_rules_register hbody with hbody | ⟨-, words, hphrase, -⟩
  · exact .inl (h name (Table.mem_keys_of_mem_entries hbody))
  · exact .inr ⟨words, hphrase⟩

/-! ## Several meanings -/

section

variable {α : Type} {name : String}

theorem mem_map_fst_toList {x : Option (String × α)} :
    name ∈ x.toList.map Prod.fst ↔ ∃ value, x = some (name, value) := by
  cases x with
  | none => simp
  | some y =>
    obtain ⟨other, value⟩ := y
    simp [eq_comm]

theorem mem_map_fst_filterMap {f : Meaning → Option (String × α)} {ms : List Meaning} :
    name ∈ (ms.filterMap f).map Prod.fst ↔ ∃ m ∈ ms, ∃ value, f m = some (name, value) := by
  simp only [List.mem_map, List.mem_filterMap]
  constructor
  · rintro ⟨⟨_, value⟩, ⟨m, hm, heq⟩, rfl⟩
    exact ⟨m, hm, value, heq⟩
  · rintro ⟨m, hm, value, heq⟩
    exact ⟨(name, value), ⟨m, hm, heq⟩, rfl⟩

end

theorem Named.foldl_register (h : d.Named) (ms : List Meaning) :
    (ms.foldl Draft.register d).Named := by
  induction ms generalizing d with
  | nil => exact h
  | cons m ms ih => exact ih (h.register m)

theorem filterMap_cons_eq_append {α : Type} (f : Meaning → Option α) (m : Meaning)
    (ms : List Meaning) : (m :: ms).filterMap f = (f m).toList ++ ms.filterMap f := by
  rw [List.filterMap_cons]
  cases f m <;> rfl

theorem rules_foldl_register (h : d.Named) (ms : List Meaning) :
    (ms.foldl register d).rules.entries =
      d.rules.entries ++
        (firstUses d.visited (ms.filterMap Meaning.phrase)).map helperRule := by
  induction ms generalizing d with
  | nil => exact (List.append_nil _).symm
  | cons m ms ih =>
    rw [List.foldl_cons, ih (h.register m), rules_register h, filterMap_cons_eq_append,
      firstUses_append, List.map_append, List.append_assoc]
    congr 3
    refine firstUses_congr fun x _ => ?_
    rw [mem_visited_register, List.mem_append, mem_map_fst_toList, or_comm]

theorem keywords_foldl_register (d : Draft) (ms : List Meaning) :
    (ms.foldl register d).keywords.entries =
      d.keywords.entries ++ firstUses d.keywords.keys (ms.filterMap Meaning.keyword) := by
  induction ms generalizing d with
  | nil => exact (List.append_nil _).symm
  | cons m ms ih =>
    rw [List.foldl_cons, ih, keywords_register, filterMap_cons_eq_append, firstUses_append,
      List.append_assoc]
    congr 2
    refine firstUses_congr fun x _ => ?_
    rw [mem_keywords_keys_register, List.mem_append, mem_map_fst_toList, or_comm]

theorem mem_keywords_keys_foldl_register {ms : List Meaning} {name : String} :
    name ∈ (ms.foldl register d).keywords.keys ↔
      name ∈ d.keywords.keys ∨ ∃ m ∈ ms, ∃ word, m.keyword = some (name, word) := by
  induction ms generalizing d with
  | nil => simp
  | cons m ms ih =>
    rw [List.foldl_cons, ih, mem_keywords_keys_register, or_assoc]
    simp only [List.mem_cons, exists_eq_or_imp]

/-! ## One production -/

variable {name : String} {p : Production}

theorem Named.visit (h : d.Named) (name : String) (p : Production) :
    (d.visit config g name p).Named := by
  by_cases hname : name ∈ d.visited
  · rw [visit_of_mem p hname]
    exact h
  · have hstart : Named { d with visited := name :: d.visited } :=
      fun other hother => List.mem_cons_of_mem _ (h other hother)
    have henter : (d.enter config g name p).Named := Named.foldl_register hstart _
    have hself : name ∈ (d.enter config g name p).visited :=
      (extends_foldl_register _ _).visited name List.mem_cons_self
    rw [visit_of_not_mem p hname]
    intro other hother
    rcases Table.mem_keys_insert.1 hother with rfl | hother
    · exact hself
    · exact henter other hother

theorem mem_visited_visit_iff {other : String} (h : name ∉ d.visited) :
    other ∈ (d.visit config g name p).visited ↔
      other ∈ d.visited ∨ other = name ∨ other ∈ (phraseUses p).map Prod.fst := by
  rw [← filterMap_phrase_productionMeanings config g, mem_map_fst_filterMap]
  constructor
  · exact mem_visited_visit
  · rintro (hother | rfl | ⟨m, hm, words, hphrase⟩)
    · exact (extends_visit d name p).visited other hother
    · exact mem_visited_self d other p
    · exact (registers_visit h hm).phrase other words hphrase

/-- A production is added behind the helpers that are new. -/
theorem rules_visit (hd : d.Named) (h : name ∉ d.visited)
    (hfresh : ∀ helper ∈ phraseUses p, helper.1 ≠ name) :
    (d.visit config g name p).rules.entries =
      d.rules.entries ++ ((firstUses d.visited (phraseUses p)).map helperRule ++
        [(name, productionBody config g name p)]) := by
  have hstart : Named { d with visited := name :: d.visited } :=
    fun other hother => List.mem_cons_of_mem _ (hd other hother)
  have hcongr : firstUses (name :: d.visited) (phraseUses p) =
      firstUses d.visited (phraseUses p) :=
    firstUses_congr fun helper hhelper => by simp [hfresh helper hhelper]
  have henter : (d.enter config g name p).rules.entries =
      d.rules.entries ++ (firstUses d.visited (phraseUses p)).map helperRule := by
    rw [← hcongr, ← filterMap_phrase_productionMeanings config g]
    exact rules_foldl_register hstart _
  have hnew : name ∉ (d.enter config g name p).rules.keys := by
    rw [Table.keys, henter, List.map_append, List.mem_append, not_or]
    refine ⟨fun hkey => h (hd name hkey), fun hkey => ?_⟩
    obtain ⟨_, hrule, heq⟩ := List.mem_map.1 hkey
    obtain ⟨helper, hhelper, rfl⟩ := List.mem_map.1 hrule
    exact hfresh helper (mem_of_mem_firstUses hhelper) heq
  rw [visit_of_not_mem p h]
  refine (Table.entries_insert_of_not_mem hnew).trans ?_
  rw [henter, List.append_assoc]

/-- A production adds its keywords that are new. -/
theorem keywords_visit (h : name ∉ d.visited) :
    (d.visit config g name p).keywords.entries =
      d.keywords.entries ++ firstUses d.keywords.keys (keywordUses config g p) := by
  rw [visit_of_not_mem p h]
  exact keywords_foldl_register _ _

theorem mem_keywords_keys_visit (h : name ∉ d.visited) {other : String} :
    other ∈ (d.visit config g name p).keywords.keys ↔
      other ∈ d.keywords.keys ∨ other ∈ (keywordUses config g p).map Prod.fst := by
  rw [visit_of_not_mem p h, keywordUses, mem_map_fst_filterMap]
  exact mem_keywords_keys_foldl_register

/-! ## All productions -/

/-- What productions add whose names are not taken, where no helper has one of the names. -/
theorem entries_run {es : List (String × Production)} (names known : List String) (hd : d.Named)
    (hnames : ∀ e ∈ es, e.1 ∈ names) (hfree : ∀ e ∈ es, e.1 ∉ d.visited)
    (hdistinct : (es.map Prod.fst).Nodup)
    (hfresh : ∀ e ∈ es, ∀ helper ∈ phraseUses e.2, helper.1 ∉ names)
    (hknown : ∀ name, name ∉ names → (name ∈ d.visited ↔ name ∈ known)) :
    (d.run config g es).rules.entries = d.rules.entries ++ rulesInOrder config g known es ∧
      (d.run config g es).keywords.entries = d.keywords.entries ++
        firstUses d.keywords.keys (es.flatMap fun e => keywordUses config g e.2) := by
  induction es generalizing d known with
  | nil => exact ⟨(List.append_nil _).symm, (List.append_nil _).symm⟩
  | cons e es ih =>
    rw [List.map_cons, List.nodup_cons] at hdistinct
    have he := hfree e List.mem_cons_self
    have hhelpers := hfresh e List.mem_cons_self
    have hself := hnames e List.mem_cons_self
    have hvisited : ∀ other, other ∈ (d.visit config g e.1 e.2).visited ↔
        other ∈ d.visited ∨ other = e.1 ∨ other ∈ (phraseUses e.2).map Prod.fst :=
      fun _ => mem_visited_visit_iff he
    have hfree' : ∀ e' ∈ es, e'.1 ∉ (d.visit config g e.1 e.2).visited := by
      intro e' he' hmem
      rcases (hvisited e'.1).1 hmem with hmem | hmem | hmem
      · exact hfree e' (List.mem_cons_of_mem _ he') hmem
      · exact hdistinct.1 (hmem ▸ List.mem_map_of_mem he')
      · obtain ⟨helper, hhelper, heq⟩ := List.mem_map.1 hmem
        exact hhelpers helper hhelper (heq ▸ hnames e' (List.mem_cons_of_mem _ he'))
    have hknown' : ∀ name, name ∉ names → (name ∈ (d.visit config g e.1 e.2).visited ↔
        name ∈ (phraseUses e.2).map Prod.fst ++ known) := by
      intro name hname
      have hne : name ≠ e.1 := fun heq => hname (heq ▸ hself)
      rw [hvisited, hknown name hname, List.mem_append, or_comm (a := name ∈ known)]
      simp [hne]
    obtain ⟨hrules, hkeywords⟩ := ih _ (hd.visit e.1 e.2)
      (fun e' he' => hnames e' (List.mem_cons_of_mem _ he')) hfree' hdistinct.2
      (fun e' he' => hfresh e' (List.mem_cons_of_mem _ he')) hknown'
    have hfirst : firstUses d.visited (phraseUses e.2) = firstUses known (phraseUses e.2) :=
      firstUses_congr fun helper hhelper => hknown helper.1 (hhelpers helper hhelper)
    constructor
    · refine hrules.trans ?_
      rw [rules_visit hd he fun helper hhelper heq => hhelpers helper hhelper (heq ▸ hself),
        hfirst, rulesInOrder]
      simp only [List.append_assoc, List.singleton_append]
    · refine hkeywords.trans ?_
      rw [keywords_visit he, List.flatMap_cons, firstUses_append, List.append_assoc]
      congr 2
      refine firstUses_congr fun x _ => ?_
      rw [mem_keywords_keys_visit he, List.mem_append, or_comm]

/-! ## Definitions of the configuration -/

/-- Entries of which some are replaced. -/
theorem entries_foldl_replace {os : List (String × String)} (hdistinct : (os.map Prod.fst).Nodup)
    (rules : Table RuleBody) :
    (os.foldl (fun rules o =>
        if rules.contains o.1 then rules.insert o.1 (.verbatim o.2) else rules) rules).entries =
      rules.entries.map fun e => (e.1, ((os.lookup e.1).map RuleBody.verbatim).getD e.2) := by
  induction os generalizing rules with
  | nil => simp
  | cons o os ih =>
    rw [List.map_cons, List.nodup_cons] at hdistinct
    have hnone : os.lookup o.1 = none := by
      rw [List.lookup_eq_none_iff]
      intro e he
      rw [bne_iff_ne]
      exact fun heq => hdistinct.1 (heq ▸ List.mem_map_of_mem he)
    rw [List.foldl_cons, ih hdistinct.2]
    by_cases hkey : o.1 ∈ rules.keys
    · rw [if_pos (Table.contains_eq_true_iff.2 hkey), Table.entries_insert_of_mem hkey,
        Table.replaceEntries, List.map_map]
      refine List.map_congr_left fun e _ => ?_
      rw [Function.comp_apply, List.lookup_cons]
      by_cases he : e.1 = o.1
      · simp [he, hnone]
      · simp [he, beq_eq_false_iff_ne.2 he]
    · rw [if_neg fun hcontains => hkey (Table.contains_eq_true_iff.1 hcontains)]
      refine List.map_congr_left fun e he => ?_
      have hne : e.1 ≠ o.1 := fun heq => hkey (heq ▸ Table.mem_keys_of_mem_entries he)
      rw [List.lookup_cons, beq_eq_false_iff_ne.2 hne]

/-- The rules that definitions of the configuration name have these as their bodies. -/
theorem entries_rules_override (config : Config) (d : Draft) :
    (d.override config).rules.entries = d.rules.entries.map fun e =>
      (e.1, ((config.ruleOverrides.get? e.1).map RuleBody.verbatim).getD e.2) :=
  entries_foldl_replace config.ruleOverrides.distinct d.rules

end Draft

/-! ## The draft of a listing -/

theorem entries_splice (config : Config) (g : Grammar) :
    (splice config g).entries = keptProductions config g := by
  rw [splice, keptProductions]
  change ((g.entries.map fun e => (e.1, spliceProduction (replacements config g) e.2)).filter
    fun e => ((replacements config g).lookup e.1).isNone) = _
  rw [List.filter_map]
  congr 1
  refine List.filter_congr fun e _ => ?_
  rw [Bool.eq_iff_iff, Function.comp_apply, Option.isNone_iff_eq_none,
    lookup_replacements_eq_none_iff, decide_eq_true_iff]

variable (config) in
/-- The draft of a listing in which no helper is called like a production. -/
theorem entries_buildRules
    (hfresh : ∀ t ∈ mentioned g, (trimmed t).toList.any isBlank = true →
      phraseName (phraseWords (trimmed t).toList) ∉ g.keys) :
    (buildRules config g).rules.entries = listedRules config g ∧
      (buildRules config g).keywords.entries = listedKeywords config g := by
  rw [buildRules_eq, listedRules, listedKeywords, ← entries_splice]
  refine Draft.entries_run g.keys [] (fun _ h => absurd h List.not_mem_nil) ?_ ?_
    (splice config g).distinct ?_ ?_
  · intro e he
    exact mem_keys_of_mem_keys_splice (Table.mem_keys_of_mem_entries he)
  · intro e he
    exact not_mem_takenNames (Table.get?_eq_some_iff.2 he)
  · intro e he helper hhelper
    obtain ⟨choice, hchoice, t, ht, hblank, rfl⟩ := mem_phraseUses.1 hhelper
    have hmentioned : t ∈ mentioned (splice config g) :=
      mem_mentioned_of_mem_choice (Table.get?_eq_some_iff.2 he) hchoice ht
    exact hfresh t (mem_mentioned_of_splice hmentioned) hblank
  · intro name hname
    have htaken : name ∉ takenNames config g := fun h => hname (mem_takenNames.1 h).2
    simp [htaken]

/-! ## The generated file -/

theorem standsIn_wrap (wrapper : Option String) (body : String) :
    StandsIn body wrapper (wrap wrapper body) := by
  cases wrapper with
  | none => exact .bare
  | some w =>
    rw [wrap, replaceFirst]
    cases hcut : splitFirst ['\x7b', '\x7d'] w.toList with
    | none =>
      rw [String.ofList_toList]
      exact .kept (splitFirst_eq_none_iff.1 hcut)
    | some p =>
      obtain ⟨before, after⟩ := p
      have hw : w = String.ofList (before ++ ['\x7b', '\x7d'] ++ after) := by
        rw [← eq_append_of_splitFirst hcut, String.ofList_toList]
      rw [hw]
      exact .filled (not_infix_of_splitFirst (List.cons_ne_nil _ _) hcut)

/-- What is printed for a rule of a listing defines it. -/
theorem defines_printedBody {r : String × RuleBody} (h : ∀ text, r.2 ≠ .verbatim text) :
    Defines config r (r.1 ++ ": " ++ printedBody config r) := by
  obtain ⟨name, body⟩ := r
  rw [printedBody]
  cases hoverride : config.ruleOverrides.get? name with
  | some text => exact .verbatim hoverride
  | none =>
    rw [Option.getD_none]
    cases body with
    | phrase words => exact .phrase hoverride
    | choices alternatives lineBreaks wrapper =>
      change Defines config _
        (name ++ ": " ++ ("$ => " ++ wrap wrapper (choiceText alternatives lineBreaks)))
      rw [← text_choicePattern]
      exact .choices hoverride (standsIn_wrap _ _)
    | verbatim text => exact absurd rfl (h text)

theorem ne_verbatim_of_mem_rulesInOrder {known : List String} {es : List (String × Production)}
    {r : String × RuleBody} (h : r ∈ rulesInOrder config g known es) (text : String) :
    r.2 ≠ .verbatim text := by
  induction es generalizing known with
  | nil => exact absurd h List.not_mem_nil
  | cons e es ih =>
    rw [rulesInOrder, List.mem_append, List.mem_cons, List.mem_map] at h
    rcases h with ⟨_, _, rfl⟩ | rfl | h
    · exact RuleBody.noConfusion
    · exact RuleBody.noConfusion
    · exact ih h

/-- The rules of a draft in which definitions of the configuration took their places. -/
theorem generatedRules_eq_of_entries {rules : List (String × RuleBody)}
    {keywords : List (String × String)} (hrules : (buildRules config g).rules.entries = rules)
    (hkeywords : (buildRules config g).keywords.entries = keywords) :
    generatedRules config (build config g) =
      ((rules.filter fun r => !config.isDeleted r.1).map fun r => (r.1, printedBody config r)) ++
        keywords.map (fun k => (k.1, keywordBody k.2)) := by
  have hbody : ∀ r : String × RuleBody,
      (((config.ruleOverrides.get? r.1).map RuleBody.verbatim).getD r.2).text =
        printedBody config r := by
    intro r
    rw [printedBody]
    cases config.ruleOverrides.get? r.1 <;> rfl
  rw [generatedRules, build]
  congr 1
  · change (((Draft.override config (buildRules config g)).rules.entries.filter
      fun e => !config.isDeleted e.1).map fun e => (e.1, e.2.text)) = _
    rw [Draft.entries_rules_override, hrules, List.filter_map, List.map_map]
    exact List.map_congr_left fun r _ => congrArg (Prod.mk r.1) (hbody r)
  · change ((buildRules config g).keywords.entries.map fun e => (e.1, keywordBody e.2)) = _
    rw [hkeywords]

theorem exists_generate_eq (config : Config) (g : Grammar) :
    ∃ frame, generate config g = frame ++ "  rules: \x7b" ++ bootText ++ "    " ++
      String.intercalate ",\n    "
        ((generatedRules config (build config g)).map definitionText) ++
      "\n" ++ "  \x7d\n\x7d);\n\n" ++ caselessFunction ++ "\n" :=
  ⟨_, rfl⟩

/-- The file holds the definitions of the generated rules. -/
theorem printsInOrder_generate
    (h : generatedRules config (build config g) =
      (((listedRules config g).filter fun r => !config.isDeleted r.1).map fun r =>
        (r.1, printedBody config r)) ++
      (listedKeywords config g).map (fun k => (k.1, keywordBody k.2))) :
    PrintsInOrder config ((listedRules config g).filter fun r => !config.isDeleted r.1)
      (listedKeywords config g) (generate config g) := by
  obtain ⟨frame, hframe⟩ := exists_generate_eq config g
  refine ⟨frame, ((listedRules config g).filter fun r => !config.isDeleted r.1).map fun r =>
    r.1 ++ ": " ++ printedBody config r, ?_, ?_⟩
  · rw [List.forall₂_map_right_iff, List.forall₂_same]
    exact fun r hr => defines_printedBody fun text =>
      ne_verbatim_of_mem_rulesInOrder (List.mem_of_mem_filter hr) text
  · rw [hframe, h, List.map_append, List.map_map, List.map_map]
    rfl

/-- The generated rules in order, each once: the productions that are not suppressed, each behind
the helpers that it is the first to use, without the rules that are deleted, and then the single
keywords. The generated file holds their definitions in this order. -/
theorem generatedRules_eq_inOrder (config : Config) (g : Grammar)
    (hfresh : ∀ t ∈ mentioned g, (trimmed t).toList.any isBlank = true →
      phraseName (phraseWords (trimmed t).toList) ∉ g.keys) :
    generatedRules config (build config g) =
        (((listedRules config g).filter fun r => !config.isDeleted r.1).map fun r =>
          (r.1, printedBody config r)) ++
        (listedKeywords config g).map (fun k => (k.1, keywordBody k.2)) ∧
      ((listedRules config g).map Prod.fst).Nodup ∧
      ((listedKeywords config g).map Prod.fst).Nodup ∧
      PrintsInOrder config ((listedRules config g).filter fun r => !config.isDeleted r.1)
        (listedKeywords config g) (generate config g) := by
  obtain ⟨hrules, hkeywords⟩ := entries_buildRules config hfresh
  have heq := generatedRules_eq_of_entries hrules hkeywords
  exact ⟨heq, hrules ▸ (buildRules config g).rules.distinct,
    hkeywords ▸ (buildRules config g).keywords.distinct, printsInOrder_generate heq⟩

/-- A listing that uses keywords again, in productions of which one is suppressed, one deleted and
one defined by the configuration. -/
def orderedListing : Grammar where
  entries := [("r", ⟨[["\"IF NOT\"", "opt", "\"A\""]], false⟩),
    ("opt", ⟨[["\"A\"", "\"B C\""]], false⟩), ("x", ⟨[["\"B\"", "\"B C\""]], false⟩),
    ("s", ⟨[["\"IF NOT\"", "x"], ["\"C\""]], true⟩)]
  distinct := by decide

/-- The tables for it. -/
def orderedConfig : Config :=
  { suppressing ["opt"] with
    deleted := NameSet.ofList ["x"]
    ruleOverrides := ⟨[("s", "$ => $.r")], by decide⟩ }

theorem generatedRules_orderedListing :
    (∀ t ∈ mentioned orderedListing, (trimmed t).toList.any isBlank = true →
      phraseName (phraseWords (trimmed t).toList) ∉ orderedListing.keys) ∧
    generatedRules orderedConfig (build orderedConfig orderedListing) =
      [("IF_NOT", "$ => prec.left(1, seq(CI('if'), CI('not')))"),
        ("B_C", "$ => prec.left(1, seq(CI('b'), CI('c')))"),
        ("r", "$ => seq($.IF_NOT, $.A, $.B_C, $.A)"), ("s", "$ => $.r"),
        ("A", "$ => CI('a')"), ("B", "$ => CI('b')"), ("C", "$ => CI('c')")] ∧
    PrintsInOrder orderedConfig
      [("IF_NOT", .phrase ["IF", "NOT"]), ("B_C", .phrase ["B", "C"]),
        ("r", .choices [[.rule "IF_NOT", .rule "A", .rule "B_C", .rule "A"]] false none),
        ("s", .choices [[.rule "IF_NOT", .rule "x"], [.rule "C"]] false none)]
      [("A", "A"), ("B", "B"), ("C", "C")] (generate orderedConfig orderedListing) := by
  have hfresh : ∀ t ∈ mentioned orderedListing, (trimmed t).toList.any isBlank = true →
      phraseName (phraseWords (trimmed t).toList) ∉ orderedListing.keys := by decide +kernel
  obtain ⟨hrules, -, -, hprints⟩ := generatedRules_eq_inOrder orderedConfig orderedListing hfresh
  have hlisted : (listedRules orderedConfig orderedListing).filter
      (fun r => !orderedConfig.isDeleted r.1) =
        [("IF_NOT", .phrase ["IF", "NOT"]), ("B_C", .phrase ["B", "C"]),
          ("r", .choices [[.rule "IF_NOT", .rule "A", .rule "B_C", .rule "A"]] false none),
          ("s", .choices [[.rule "IF_NOT", .rule "x"], [.rule "C"]] false none)] := by
    decide +kernel
  have hkeywords : listedKeywords orderedConfig orderedListing =
      [("A", "A"), ("B", "B"), ("C", "C")] := by decide +kernel
  rw [hlisted, hkeywords] at hrules hprints
  refine ⟨hfresh, hrules.trans ?_, hprints⟩
  decide +kernel

end CqlGlue.EditorGrammar
