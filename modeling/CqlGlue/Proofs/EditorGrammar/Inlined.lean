import CqlGlue.EditorGrammar.Printer
import CqlGlue.Proofs.EditorGrammar.Drafts
import CqlGlue.Proofs.EditorGrammar.Splice
import CqlGlue.Proofs.EditorGrammar.Tokens
import CqlGlue.Proofs.Listing.Definitions
import CqlGlue.Proofs.Listing.Inlined

/-!
# Inlining and splicing are the same

Suppressed productions are spliced into a grammar after reading it, as tokens. Inlining puts their
right-hand sides into the text of the listing before reading it. Where the words can be inlined,
both give the same grammar, and in the end the same generated file.

## Main definitions
* `AvoidsPhrases` says that no keyword of several words gets a helper named like a word.

## Main statements
* `splice_grammarOf` says that splicing a listing gives the listing that was inlined.
* `splice_inlined` says that there is nothing left to splice in it.
* `generate_run` says that the same file is generated.
-/

namespace CqlGlue.EditorGrammar

open Text Listing

variable {config : Config} {words : List (List Char)} {lines : List Line}

/-! ## What words stand for -/

/-- A word has the production of the row that defines it. -/
theorem get?_grammarOf_word (h : Inlinable words lines) {w : List Char} (hw : w ∈ words) :
    (grammarOf (rowsOf lines)).get? (String.ofList w) =
      some ⟨[(bodyTokens (rowsOf lines) w).map String.ofList], false⟩ := by
  obtain ⟨r, -, -, hfilter, hpieces⟩ := h.exists_row hw
  rw [get?_grammarOf_of_filter hfilter, Row.production, hpieces]
  rfl

section

variable (h : Inlinable words lines)
  (hsuppressed : ∀ name : String, name ∈ config.suppressed.names ↔ name.toList ∈ words)
include h hsuppressed

theorem lookup_replacements_grammarOf (t : List Char) :
    (replacements config (grammarOf (rowsOf lines))).lookup (String.ofList t) =
      if t ∈ words then some ((bodyTokens (rowsOf lines) t).map String.ofList) else none := by
  rw [lookup_replacements]
  simp only [hsuppressed, String.toList_ofList]
  split
  · rename_i ht
    rw [get?_grammarOf_word h ht]
    rfl
  · rfl

/-- Splicing tokens is substituting the words in them. -/
theorem spliceTokens_map_ofList (ts : List (List Char)) :
    spliceTokens (replacements config (grammarOf (rowsOf lines))) (ts.map String.ofList) =
      (ts.flatMap (expand words (bodyTokens (rowsOf lines)))).map String.ofList := by
  rw [spliceTokens, List.flatMap_map, List.map_flatMap]
  congr 1
  funext t
  rw [lookup_replacements_grammarOf h hsuppressed, expand]
  split <;> rfl

/-! ## Splicing -/

theorem read_subst (p : Piece) :
    (p.subst (expand words (bodyTokens (rowsOf lines)))).read =
      p.read.map (spliceTokens (replacements config (grammarOf (rowsOf lines)))) := by
  cases p with
  | comment text => rfl
  | tokens ts => exact congrArg some (spliceTokens_map_ofList h hsuppressed ts).symm

/-- What comes out for a row defines the spliced production. -/
theorem definition_inlined (r : Row) :
    (r.inlined words (rowsOf lines)).definition =
      (r.definition.1,
        spliceProduction (replacements config (grammarOf (rowsOf lines))) r.definition.2) := by
  have hread : (r.inlined words (rowsOf lines)).pieces.map Piece.read =
      (r.pieces.map Piece.read).map
        (Option.map (spliceTokens (replacements config (grammarOf (rowsOf lines))))) := by
    simp only [Row.inlined, Row.subst, Row.trimmed, List.map_map]
    exact List.map_congr_left fun p _ => read_subst h hsuppressed p
  have hchoices : ∀ (f : List String → List String) (reads : List (Option (List String))),
      (reads.map (Option.map f)).filterMap id = (reads.filterMap id).map f := by
    intro f reads
    rw [List.filterMap_map, List.map_filterMap]
    rfl
  have hoptional : ∀ (f : List String → List String) (reads : List (Option (List String))),
      (reads.map (Option.map f)).any Option.isNone = reads.any Option.isNone := by
    intro f reads
    rw [List.any_map]
    congr 1
    funext read
    cases read <;> rfl
  rw [Row.definition, name_inlined, Row.production, hread, hchoices, hoptional]
  rfl

theorem isNone_lookup_replacements (r : Row) :
    ((replacements config (grammarOf (rowsOf lines))).lookup r.definition.1).isNone =
      !words.contains r.name := by
  rw [Row.definition, lookup_replacements_grammarOf h hsuppressed]
  by_cases hname : r.name ∈ words
  · simp [hname]
  · simp [hname]

/-- Splicing what was read gives what is read after inlining. -/
theorem splice_grammarOf :
    splice config (grammarOf (rowsOf lines)) = grammarOf (inlinedRows words lines) := by
  have hkept : ((rowsOf lines).map Row.definition).filter
      (fun d => ((replacements config (grammarOf (rowsOf lines))).lookup d.1).isNone) =
      ((rowsOf lines).filter fun r => !words.contains r.name).map Row.definition := by
    rw [List.filter_map]
    congr 1
    exact List.filter_congr fun r _ => isNone_lookup_replacements h hsuppressed r
  have hcommute := Grammar.filter_map_defineAll
    (List.map (spliceTokens (replacements config (grammarOf (rowsOf lines)))))
    (fun name => ((replacements config (grammarOf (rowsOf lines))).lookup name).isNone)
    Table.empty ((rowsOf lines).map Row.definition)
  rw [hkept, List.map_map] at hcommute
  have hdefinitions : (inlinedRows words lines).map Row.definition =
      ((rowsOf lines).filter fun r => !words.contains r.name).map fun r =>
        (r.definition.1,
          spliceProduction (replacements config (grammarOf (rowsOf lines))) r.definition.2) := by
    rw [inlinedRows, List.map_map]
    exact List.map_congr_left fun r _ => definition_inlined h hsuppressed r
  conv => rhs; rw [grammarOf, hdefinitions]
  exact hcommute

omit h in
/-- No row that comes out defines a word. -/
theorem not_mem_suppressed_of_mem_keys {name : String}
    (hname : name ∈ (grammarOf (inlinedRows words lines)).keys) :
    name ∉ config.suppressed.names := by
  rw [hsuppressed]
  rcases Grammar.mem_keys_defineAll.1 hname with hname | ⟨d, hd, rfl⟩
  · exact absurd hname List.not_mem_nil
  · obtain ⟨r, hr, rfl⟩ := List.mem_map.1 hd
    obtain ⟨r', hr', rfl⟩ := List.mem_map.1 hr
    have hkept := (List.mem_filter.1 hr').2
    rw [Row.definition, String.toList_ofList, name_inlined]
    simpa using hkept

omit h in
/-- Once the words are inlined there is nothing left to splice. -/
theorem splice_inlined :
    splice config (grammarOf (inlinedRows words lines)) = grammarOf (inlinedRows words lines) :=
  splice_eq_self fun _ hname => not_mem_suppressed_of_mem_keys hsuppressed hname

end

/-! ## Helpers -/

/-- No keyword of several words has a helper with one of the names. -/
def AvoidsPhrases (names : List String) (rows : List Row) : Prop :=
  ∀ t ∈ mentionedTokens rows, t.any isBlank = true → phraseName (phraseWords t) ∉ names

instance (names : List String) (rows : List Row) : Decidable (AvoidsPhrases names rows) :=
  inferInstanceAs (Decidable (∀ t ∈ mentionedTokens rows, _ → _))

/-- The meanings in use come from tokens in the listing, which have no blanks around them. -/
theorem exists_token_of_mem_productionMeanings (h : Inlinable words lines) {g : Grammar}
    {e : String × Production} (he : e ∈ (grammarOf (inlinedRows words lines)).entries)
    {m : Meaning} (hm : m ∈ productionMeanings config g e.2) :
    ∃ t : String, t.toList ∈ mentionedTokens (rowsOf lines) ∧ m = meaning config g t := by
  obtain ⟨choice, hchoice, token, htoken, -, rfl⟩ := mem_productionMeanings.1 hm
  have hmem := h.mem_mentionedTokens_of_inlined
    (mem_mentionedTokens_of_mem_grammarOf he hchoice htoken)
  exact ⟨token, hmem, by rw [(h.isToken_of_mem hmem).isPiece.solid.trimmed_eq]⟩

theorem avoids_of_mem_productionMeanings (h : Inlinable words lines) {names : List String}
    (hphrases : AvoidsPhrases names (rowsOf lines)) {g : Grammar} {e : String × Production}
    (he : e ∈ (grammarOf (inlinedRows words lines)).entries) {m : Meaning}
    (hm : m ∈ productionMeanings config g e.2) : Draft.Avoids names m := by
  obtain ⟨t, ht, rfl⟩ := exists_token_of_mem_productionMeanings h he hm
  intro name ws hphrase
  obtain ⟨hblank, rfl⟩ := phrase_meaning hphrase
  exact hphrases _ ht hblank

/-! ## The generated file -/

/-- The file depends on the rules and the keywords of the draft only. -/
theorem generate_congr {g g' : Grammar}
    (hrules : (buildRules config g).rules = (buildRules config g').rules)
    (hkeywords : (buildRules config g).keywords = (buildRules config g').keywords) :
    generate config g = generate config g' := by
  have hgenerated : generatedRules config (build config g) =
      generatedRules config (build config g') := by
    simp only [generatedRules, build, Draft.override, hrules, hkeywords]
  unfold generate
  rw [hgenerated]

/-- A grammar and the grammar after splicing give the same file, as long as nothing is called
like a suppressed production. -/
theorem generate_grammarOf (h : Inlinable words lines)
    (hsuppressed : ∀ name : String, name ∈ config.suppressed.names ↔ name.toList ∈ words)
    (hphrases : AvoidsPhrases config.suppressed.names (rowsOf lines)) :
    generate config (grammarOf (inlinedRows words lines)) =
      generate config (grammarOf (rowsOf lines)) := by
  have htaken : ∀ (g : Grammar) name, name ∉ config.suppressed.names →
      name ∉ takenNames config g :=
    fun _ _ hname hmem => hname (mem_takenNames.1 hmem).1
  have hstart : Draft.Agrees config.suppressed.names
      ⟨Table.empty, Table.empty, takenNames config (grammarOf (inlinedRows words lines))⟩
      ⟨Table.empty, Table.empty, takenNames config (grammarOf (rowsOf lines))⟩ := by
    refine ⟨rfl, rfl, fun name hname => ?_⟩
    exact iff_of_false (htaken _ name hname) (htaken _ name hname)
  have hnames : ∀ e ∈ (grammarOf (inlinedRows words lines)).entries,
      e.1 ∉ config.suppressed.names := fun e he =>
    not_mem_suppressed_of_mem_keys hsuppressed (Table.mem_keys_of_mem_entries he)
  have havoids : ∀ e ∈ (grammarOf (inlinedRows words lines)).entries,
      ∀ m ∈ productionMeanings config (grammarOf (inlinedRows words lines)) e.2,
        Draft.Avoids config.suppressed.names m :=
    fun _ he _ hm => avoids_of_mem_productionMeanings h hphrases he hm
  have hrun := hstart.run hnames havoids
  refine generate_congr ?_ ?_
  · rw [buildRules_eq, buildRules_eq, splice_inlined hsuppressed, splice_grammarOf h hsuppressed]
    exact hrun.rules
  · rw [buildRules_eq, buildRules_eq, splice_inlined hsuppressed, splice_grammarOf h hsuppressed]
    exact hrun.keywords

/-- Inlining the words to suppress in the text of a listing does not fail and does not change
the file that is generated. -/
theorem generate_run {words : List String} (h : Inlinable (words.map String.toList) lines)
    (hphrases : AvoidsPhrases words (rowsOf lines))
    (hsuppressed : ∀ name, name ∈ config.suppressed.names ↔ name ∈ words) :
    ∃ out, ((Inliner.ofWords words).run (String.ofList (listing lines))).value = .ok out ∧
      generate config (Grammar.parse (String.ofList (listing lines))) =
        generate config (Grammar.parse out) := by
  refine ⟨_, run_listing h, ?_⟩
  have htexts : ∀ name : String,
      name ∈ config.suppressed.names ↔ name.toList ∈ words.map String.toList := by
    intro name
    rw [hsuppressed, List.mem_map]
    constructor
    · exact fun hname => ⟨name, hname, rfl⟩
    · rintro ⟨w, hw, heq⟩
      exact String.toList_inj.1 heq ▸ hw
  rw [parse_listing h.written, parse_listing h.isWritten_inlined, rowsOf_inlined]
  refine (generate_grammarOf h htexts ?_).symm
  intro t ht hblank hname
  exact hphrases t ht hblank ((hsuppressed _).1 hname)

/-- A listing with a keyword of two words and a helper `temp`, which is used in two rows. -/
def helperLines : List Line :=
  [.row ⟨"stmt ".toList, [' '],
      [.tokens ["\"CREATE\"".toList, "temp".toList, "name".toList],
        .comment "/* nil */".toList], []⟩,
    .row ⟨"temp ".toList, [' '], [.tokens ["\"IF NOT\"".toList, "flag".toList]], []⟩,
    .blank [],
    .row ⟨"name ".toList, [' '], [.tokens ["ID".toList], .tokens ["temp".toList]], [' ']⟩]

theorem generate_run_helperLines :
    ∃ out, ((Inliner.ofWords ["temp"]).run (String.ofList (listing helperLines))).value = .ok out ∧
      generate (suppressing ["temp"]) (Grammar.parse (String.ofList (listing helperLines))) =
        generate (suppressing ["temp"]) (Grammar.parse out) := by
  refine generate_run ⟨by decide +kernel, by decide +kernel, ?_, by decide +kernel,
    by decide +kernel⟩ (by decide +kernel) fun name => Iff.rfl
  intro w hw
  rw [List.mem_singleton.1 hw]
  exact ⟨_, _, rfl, rfl, by decide +kernel⟩

end CqlGlue.EditorGrammar
