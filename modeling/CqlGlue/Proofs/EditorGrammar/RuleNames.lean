import CqlGlue.EditorGrammar.Printer
import CqlGlue.Listing.Reader
import CqlGlue.Proofs.EditorGrammar.Drafts
import CqlGlue.Proofs.EditorGrammar.Splice

/-!
# Names of rules that clash

The rules of a generated file come from four sides: rules written by hand, productions, helpers
of keywords of several words, and single keywords. Productions and helpers share the names they
take, and names that are defined by hand can be left out of them. Nothing keeps the name of a
single keyword apart from the others, and some rules written by hand are not left out, so a name
can be defined twice. When this happens is known exactly.

## Main definitions
* `ruleNames` are the names defined in a generated file.
* `IsDefined` are the names of productions and helpers, `keywordNames` those of single keywords.
* `openBootNames` are the names defined by hand that generated rules may have as well.

## Main statements
* `nodup_ruleNames_iff` says when no name is defined twice.
* `nodup_ruleNames_standard_iff` says so for the tables of CQL, and
  `not_nodup_ruleNames_ifdef` is a listing that defines names twice.
-/

namespace CqlGlue.EditorGrammar

open Text Listing

/-- The names of the rules written by hand. -/
def bootNames : List String := bootRules.flatten.map Prod.fst

/-- The names defined in a generated file in order. -/
def ruleNames (config : Config) (g : Grammar) : List String :=
  bootNames ++ (generatedRules config (build config g)).map Prod.fst

/-- The names of the helpers that the rules of a listing rely on. -/
def helperNames (config : Config) (g : Grammar) : List String :=
  ((convertedMeanings config g).filterMap Meaning.phrase).map Prod.fst

/-- The names of the single keywords that the rules of a listing rely on. -/
def keywordNames (config : Config) (g : Grammar) : List String :=
  ((convertedMeanings config g).filterMap Meaning.keyword).map Prod.fst

/-- The name of a production that is not suppressed, or of a helper that is not called like a
suppressed one. -/
def IsDefined (config : Config) (g : Grammar) (name : String) : Prop :=
  ¬ IsSuppressed config g name ∧ (name ∈ g.keys ∨ name ∈ helperNames config g)

variable {config : Config} {g : Grammar} {name : String}

/-! ## Names of a draft -/

theorem mem_helperNames :
    name ∈ helperNames config g ↔
      ∃ m ∈ convertedMeanings config g, ∃ words, m.phrase = some (name, words) := by
  simp only [helperNames, List.mem_map, List.mem_filterMap]
  constructor
  · rintro ⟨_, ⟨m, hm, hphrase⟩, rfl⟩
    exact ⟨m, hm, _, hphrase⟩
  · rintro ⟨m, hm, words, hphrase⟩
    exact ⟨(name, words), ⟨m, hm, hphrase⟩, rfl⟩

theorem mem_keywordNames :
    name ∈ keywordNames config g ↔
      ∃ m ∈ convertedMeanings config g, ∃ word, m.keyword = some (name, word) := by
  simp only [keywordNames, List.mem_map, List.mem_filterMap]
  constructor
  · rintro ⟨_, ⟨m, hm, hkeyword⟩, rfl⟩
    exact ⟨m, hm, _, hkeyword⟩
  · rintro ⟨m, hm, word, hkeyword⟩
    exact ⟨(name, word), ⟨m, hm, hkeyword⟩, rfl⟩

/-- The rules of a draft are those of productions and helpers. -/
theorem mem_keys_rules_iff :
    name ∈ (buildRules config g).rules.keys ↔ IsDefined config g name := by
  constructor
  · intro h
    obtain ⟨body, hbody⟩ := Table.mem_keys_iff.1 h
    rcases mem_rules_buildRules hbody with ⟨p, hp, -⟩ | ⟨hfree, m, hm, words, hphrase, -⟩
    · obtain ⟨hkept, q, hq, -⟩ := get?_splice.1 (get?_of_mem_convertedProductions hp)
      exact ⟨hkept, .inl (Table.mem_keys_of_mem_entries (Table.get?_eq_some_iff.1 hq))⟩
    · exact ⟨fun hs => hfree (mem_takenNames.2 hs),
        .inr (mem_helperNames.2 ⟨m, hm, words, hphrase⟩)⟩
  · rintro ⟨hkept, hkey | hhelper⟩
    · obtain ⟨p, hp⟩ := Table.mem_keys_iff.1 hkey
      exact mem_keys_buildRules (get?_splice.2 ⟨hkept, p, Table.get?_eq_some_iff.2 hp, rfl⟩)
    · obtain ⟨m, hm, words, hphrase⟩ := mem_helperNames.1 hhelper
      have hvisited := (registers_buildRules hm).phrase name words hphrase
      exact (mem_takenNames_or_mem_keys hvisited).resolve_left fun h => hkept (mem_takenNames.1 h)

theorem mem_keys_keywords_iff :
    name ∈ (buildRules config g).keywords.keys ↔ name ∈ keywordNames config g := by
  rw [mem_keywordNames]
  constructor
  · intro h
    obtain ⟨word, hword⟩ := Table.mem_keys_iff.1 h
    obtain ⟨m, hm, hkeyword⟩ := mem_keywords_buildRules hword
    exact ⟨m, hm, word, hkeyword⟩
  · rintro ⟨m, hm, word, hkeyword⟩
    exact (registers_buildRules hm).keyword name word hkeyword

/-- Definitions of the configuration take the places of rules that are there. -/
theorem keys_rules_override (config : Config) (d : Draft) :
    (d.override config).rules.keys = d.rules.keys := by
  rw [Draft.override]
  induction config.ruleOverrides.entries generalizing d with
  | nil => rfl
  | cons o os ih =>
    rw [List.foldl_cons]
    split
    · rename_i h
      refine (ih { d with rules := d.rules.insert o.1 (.verbatim o.2) }).trans ?_
      rw [Table.keys_insert, if_pos (Table.contains_eq_true_iff.1 h)]
    · exact ih d

/-- A generated definition is that of a production or helper that is not left out, or that of a
single keyword. -/
theorem mem_map_fst_generatedRules :
    name ∈ (generatedRules config (build config g)).map Prod.fst ↔
      (IsDefined config g name ∧ config.isDeleted name = false) ∨ name ∈ keywordNames config g := by
  rw [map_fst_generatedRules, build, keys_rules_override, List.mem_append, List.mem_filter,
    mem_keys_rules_iff, Bool.not_eq_true', ← mem_keys_keywords_iff]
  rfl

/-! ## Names defined twice -/

theorem nodup_bootNames : bootNames.Nodup := by decide +kernel

/-- The generated definitions alone clash where a single keyword is called like a production or
helper that is not left out. -/
theorem nodup_generatedRules_iff :
    ((generatedRules config (build config g)).map Prod.fst).Nodup ↔
      ∀ name ∈ keywordNames config g, IsDefined config g name → config.isDeleted name = true := by
  rw [map_fst_generatedRules, build, keys_rules_override, List.nodup_append]
  have hrules : ((buildRules config g).rules.keys.filter
      (fun name => !config.isDeleted name)).Nodup := (buildRules config g).rules.distinct.filter _
  have hkeywords : ((buildRules config g).override config).keywords.keys.Nodup :=
    (buildRules config g).keywords.distinct
  constructor
  · rintro ⟨-, -, hdisjoint⟩ name hkeyword hdefined
    apply Decidable.byContradiction
    intro hkept
    refine hdisjoint name (List.mem_filter.2 ⟨mem_keys_rules_iff.2 hdefined, ?_⟩) name
      (mem_keys_keywords_iff.2 hkeyword) rfl
    simpa using hkept
  · intro h
    refine ⟨hrules, hkeywords, ?_⟩
    rintro name hrule _ hkeyword rfl
    obtain ⟨hrule, hkept⟩ := List.mem_filter.1 hrule
    rw [h name (mem_keys_keywords_iff.1 hkeyword) (mem_keys_rules_iff.1 hrule)] at hkept
    cases hkept

/-- No name is defined twice when productions and helpers with names of rules written by hand are
left out, no single keyword has such a name, and single keywords called like productions or
helpers are those of names left out. -/
theorem nodup_ruleNames_iff :
    (ruleNames config g).Nodup ↔
      (∀ name ∈ bootNames, IsDefined config g name → config.isDeleted name = true) ∧
        (∀ name ∈ bootNames, name ∉ keywordNames config g) ∧
        ∀ name ∈ keywordNames config g, IsDefined config g name →
          config.isDeleted name = true := by
  rw [ruleNames, List.nodup_append, nodup_generatedRules_iff]
  constructor
  · rintro ⟨-, hgenerated, hdisjoint⟩
    have hapart : ∀ name ∈ bootNames,
        name ∉ (generatedRules config (build config g)).map Prod.fst :=
      fun name hboot hname => hdisjoint name hboot name hname rfl
    refine ⟨fun name hboot hdefined => ?_, fun name hboot hkeyword => ?_, hgenerated⟩
    · apply Decidable.byContradiction
      intro hkept
      exact hapart name hboot
        (mem_map_fst_generatedRules.2 (.inl ⟨hdefined, Bool.eq_false_iff.2 hkept⟩))
    · exact hapart name hboot (mem_map_fst_generatedRules.2 (.inr hkeyword))
  · rintro ⟨hrules, hkeywords, hgenerated⟩
    refine ⟨nodup_bootNames, hgenerated, ?_⟩
    rintro name hboot _ hname rfl
    rcases mem_map_fst_generatedRules.1 hname with ⟨hdefined, hkept⟩ | hkeyword
    · rw [hrules name hboot hdefined] at hkept
      cases hkept
    · exact hkeywords name hboot hkeyword

/-! ## The tables of CQL -/

/-- The names of the rules written by hand that are not left out of the generated ones. -/
def openBootNames : List String :=
  ["include_stmt", "comment", "macro_ref", "AT_IFDEF", "AT_IFNDEF", "AT_ELSE", "AT_ENDIF",
    "ifdef", "ifndef", "pre_proc"]

theorem filter_bootNames :
    bootNames.filter (fun name => !Config.standard.isDeleted name) = openBootNames := by
  decide +kernel

/-- With the tables of CQL no name is defined twice when the listing defines none of ten names of
rules written by hand, no single keyword has the name of a rule written by hand, and single
keywords called like productions or helpers are those of names left out. -/
theorem nodup_ruleNames_standard_iff (g : Grammar) :
    (ruleNames Config.standard g).Nodup ↔
      (∀ name ∈ openBootNames, ¬ IsDefined Config.standard g name) ∧
        (∀ name ∈ bootNames, name ∉ keywordNames Config.standard g) ∧
        ∀ name ∈ keywordNames Config.standard g, IsDefined Config.standard g name →
          Config.standard.isDeleted name = true := by
  rw [nodup_ruleNames_iff, ← filter_bootNames]
  refine and_congr ?_ Iff.rfl
  constructor
  · intro h name hname hdefined
    obtain ⟨hboot, hkept⟩ := List.mem_filter.1 hname
    rw [h name hboot hdefined] at hkept
    cases hkept
  · intro h name hboot hdefined
    apply Decidable.byContradiction
    intro hkept
    exact h name (List.mem_filter.2 ⟨hboot, by simpa using hkept⟩) hdefined

/-- A listing with a production and two keywords that have names of rules written by hand. -/
def ifdefText : String := "stmt ::= \"program\" | pre_proc\npre_proc ::= \"@IFDEF\" name\n"

/-- What is read from it. -/
def ifdefListing : Grammar where
  entries := [("stmt", ⟨[["\"program\""], ["pre_proc"]], false⟩),
    ("pre_proc", ⟨[["\"@IFDEF\"", "name"]], false⟩)]
  distinct := by decide

theorem parse_ifdefText : Grammar.parse ifdefText = ifdefListing :=
  Table.eq_of_entries_eq (by decide +kernel)

/-- The production `pre_proc` and the keywords `program` and `AT_IFDEF` are defined again. -/
theorem not_nodup_ruleNames_ifdef :
    ["program", "pre_proc", "AT_IFDEF"].all
        (fun name => (ruleNames Config.standard (Grammar.parse ifdefText)).count name == 2) = true ∧
      ¬ (ruleNames Config.standard (Grammar.parse ifdefText)).Nodup := by
  refine ⟨?_, fun h => ?_⟩
  · rw [parse_ifdefText]
    decide +kernel
  · refine ((nodup_ruleNames_standard_iff _).1 h).2.1 "program" (by decide +kernel) ?_
    rw [parse_ifdefText]
    decide +kernel

end CqlGlue.EditorGrammar
