import CqlGlue.EditorGrammar.Printer
import CqlGlue.Proofs.EditorGrammar.Derivation
import CqlGlue.Proofs.EditorGrammar.Quoting

/-!
# What the generated rules match

A generated rule is an expression over references, literals, case-insensitive words and a few
combinators. Reading it gives a grammar again: a reference matches what the rule of that name
matches, and a name without a rule stands for itself. A literal matches the text that its quotes
stand around, if they do, and a word is matched where its pattern accepts the spellings of the word.

## Main definitions
* `Pattern` is an expression, `Pattern.text` its printed form.
* `Matches` is the language of a sequence of expressions under a list of rules.
* `generatedPatterns` are the rules of a draft as they are read.
* `Pattern.Accepts` is one expression under given languages for the names in it.

## Main statements
* `generatedRules_eq` says that what is read is what is printed.
* `acceptsAll_of_matches` is the principle by which a language is shown to hold all matches.
-/

namespace CqlGlue.EditorGrammar

open Text Listing

/-- An expression of the generated grammar. -/
inductive Pattern where
  /-- A reference to a rule. -/
  | rule (name : String)
  /-- A quoted text, quotes included. -/
  | literal (quoted : String)
  /-- A word in either case. -/
  | caseless (word : String)
  /-- One expression after the other. -/
  | seq (parts : List Pattern)
  /-- Any of several expressions, perhaps printed one on a line. -/
  | choice (lineBreaks : Bool) (alternatives : List Pattern)
  /-- An expression or nothing. -/
  | optional (body : Pattern)
  /-- An expression with a precedence, which resolves conflicts and matches no less. -/
  | left (level : Nat) (body : Pattern)
  /-- An expression of the configuration, which is not read. -/
  | foreign (text : String)

mutual

/-- The printed form of an expression. -/
def Pattern.text : Pattern → String
  | .rule name => "$." ++ name
  | .literal quoted => quoted
  | .caseless word => "CI('" ++ word ++ "')"
  | .seq parts => "seq(" ++ String.intercalate ", " (Pattern.texts parts) ++ ")"
  | .choice lineBreaks alternatives =>
    "choice(" ++
      String.intercalate (if lineBreaks then ",\n      " else ", ") (Pattern.texts alternatives) ++
      ")"
  | .optional body => "optional(" ++ body.text ++ ")"
  | .left level body => "prec.left(" ++ toString level ++ ", " ++ body.text ++ ")"
  | .foreign text => text

/-- The printed forms of a list of expressions. -/
def Pattern.texts : List Pattern → List String
  | [] => []
  | p :: ps => p.text :: Pattern.texts ps

end

theorem Pattern.texts_eq_map (ps : List Pattern) : Pattern.texts ps = ps.map Pattern.text := by
  induction ps with
  | nil => rfl
  | cons p ps ih => rw [Pattern.texts, List.map_cons, ih]

mutual

/-- The names that an expression refers to. -/
def Pattern.names : Pattern → List String
  | .rule name => [name]
  | .literal _ | .caseless _ | .foreign _ => []
  | .seq parts => Pattern.namesOf parts
  | .choice _ alternatives => Pattern.namesOf alternatives
  | .optional body => body.names
  | .left _ body => body.names

/-- The names that expressions refer to. -/
def Pattern.namesOf : List Pattern → List String
  | [] => []
  | p :: ps => p.names ++ Pattern.namesOf ps

end

theorem Pattern.mem_namesOf {ps : List Pattern} {name : String} :
    name ∈ Pattern.namesOf ps ↔ ∃ p ∈ ps, name ∈ p.names := by
  induction ps with
  | nil => simp [Pattern.namesOf]
  | cons p ps ih => simp [Pattern.namesOf, ih]

/-- The rule of a name. Of several definitions the last one counts. -/
def ruleOf? (rules : List (String × Pattern)) (name : String) : Option Pattern :=
  rules.reverse.lookup name

/-- The texts matched by a sequence of expressions. -/
inductive Matches (rules : List (String × Pattern)) : List Pattern → List Terminal → Prop
  | nil : Matches rules [] []
  | rule {name : String} {p : Pattern} {ps : List Pattern} {w : List Terminal}
      (hrule : ruleOf? rules name = some p) (h : Matches rules (p :: ps) w) :
      Matches rules (.rule name :: ps) w
  | name {name : String} {ps : List Pattern} {w : List Terminal}
      (hrule : ruleOf? rules name = none) (h : Matches rules ps w) :
      Matches rules (.rule name :: ps) (.name name :: w)
  | literal {quoted text : String} {ps : List Pattern} {w : List Terminal}
      (htext : quotedText? quoted = some text) (h : Matches rules ps w) :
      Matches rules (.literal quoted :: ps) (.mark text :: w)
  | caseless {word : String} {ps : List Pattern} {w : List Terminal}
      (hword : MatchesSpellings word) (h : Matches rules ps w) :
      Matches rules (.caseless word :: ps) (wordTerminals word ++ w)
  | seq {parts ps : List Pattern} {w : List Terminal} (h : Matches rules (parts ++ ps) w) :
      Matches rules (.seq parts :: ps) w
  | choice {lineBreaks : Bool} {p : Pattern} {alternatives ps : List Pattern}
      {w : List Terminal} (hp : p ∈ alternatives) (h : Matches rules (p :: ps) w) :
      Matches rules (.choice lineBreaks alternatives :: ps) w
  | skip {p : Pattern} {ps : List Pattern} {w : List Terminal} (h : Matches rules ps w) :
      Matches rules (.optional p :: ps) w
  | take {p : Pattern} {ps : List Pattern} {w : List Terminal} (h : Matches rules (p :: ps) w) :
      Matches rules (.optional p :: ps) w
  | left {level : Nat} {p : Pattern} {ps : List Pattern} {w : List Terminal}
      (h : Matches rules (p :: ps) w) : Matches rules (.left level p :: ps) w

/-! ## The rules of a draft -/

/-- A symbol as an expression. -/
def Symbol.pattern : Symbol → Pattern
  | .literal text => .literal text
  | .rule name => .rule name
  | .optionalRule name => .optional (.rule name)
  | .fixed text => .foreign text

/-- An alternative as an expression: a lone symbol stands by itself. -/
def alternativePattern : List Symbol → Pattern
  | [s] => s.pattern
  | symbols => .seq (symbols.map Symbol.pattern)

/-- Alternatives as an expression: a lone one stands by itself. -/
def choicePattern (alternatives : List (List Symbol)) (lineBreaks : Bool) : Pattern :=
  match alternatives with
  | [a] => alternativePattern a
  | _ => .choice lineBreaks (alternatives.map alternativePattern)

/-- The body of a rule as an expression. What the configuration puts into it is not read. -/
def RuleBody.pattern : RuleBody → Pattern
  | .choices alternatives lineBreaks none => choicePattern alternatives lineBreaks
  | .choices alternatives lineBreaks (some wrapper) =>
    .foreign (wrap (some wrapper) (choiceText alternatives lineBreaks))
  | .phrase words => .left 1 (.seq (words.map fun word => .caseless (lowercase word)))
  | .verbatim text => .foreign text

/-- The rule of a single keyword as an expression. -/
def keywordPattern (word : String) : Pattern := .caseless (lowercase word)

/-- The generated definitions in order, as they are read. -/
def generatedPatterns (config : Config) (d : Draft) : List (String × Pattern) :=
  ((d.rules.filter fun name _ => !config.isDeleted name).map RuleBody.pattern).entries ++
    (d.keywords.map keywordPattern).entries

/-- A definition with its body as it is printed. -/
def printedRule (rule : String × Pattern) : String × String := (rule.1, "$ => " ++ rule.2.text)

theorem Symbol.text_pattern (s : Symbol) : s.pattern.text = s.text := by
  cases s with
  | literal text => rfl
  | rule name => rfl
  | optionalRule name =>
    have hopen : "optional($." = "optional(" ++ "$." := by decide
    change "optional(" ++ ("$." ++ name) ++ ")" = "optional($." ++ name ++ ")"
    rw [hopen]
    simp only [String.append_assoc]
  | fixed text => rfl

theorem texts_map_pattern (symbols : List Symbol) :
    Pattern.texts (symbols.map Symbol.pattern) = symbols.map Symbol.text := by
  rw [Pattern.texts_eq_map, List.map_map]
  exact List.map_congr_left fun s _ => s.text_pattern

theorem text_alternativePattern (symbols : List Symbol) :
    (alternativePattern symbols).text = alternativeText symbols := by
  rcases symbols with _ | ⟨s, _ | ⟨s', symbols⟩⟩
  · rfl
  · exact s.text_pattern
  · exact congrArg (fun texts => "seq(" ++ String.intercalate ", " texts ++ ")")
      (texts_map_pattern _)

theorem text_choicePattern (alternatives : List (List Symbol)) (lineBreaks : Bool) :
    (choicePattern alternatives lineBreaks).text = choiceText alternatives lineBreaks := by
  have hall : Pattern.texts (alternatives.map alternativePattern) =
      alternatives.map alternativeText := by
    rw [Pattern.texts_eq_map, List.map_map]
    exact List.map_congr_left fun a _ => text_alternativePattern a
  rcases alternatives with _ | ⟨a, _ | ⟨a', alternatives⟩⟩
  · rfl
  · exact text_alternativePattern a
  · exact congrArg
      (fun texts =>
        "choice(" ++ String.intercalate (if lineBreaks then ",\n      " else ", ") texts ++ ")")
      hall

/-- The words of a keyword are printed as one expression within another. -/
theorem RuleBody.text_phrase (words : List String) :
    (RuleBody.phrase words).text = "$ => " ++ (RuleBody.phrase words).pattern.text := by
  have hwords : Pattern.texts (words.map fun word => .caseless (lowercase word)) =
      words.map caseless := by
    rw [Pattern.texts_eq_map, List.map_map]
    exact List.map_congr_left fun word _ => rfl
  have hopen : "$ => prec.left(1, seq(" =
      "$ => " ++ ("prec.left(" ++ toString 1 ++ ", " ++ "seq(") := by decide
  have hclose : "))" = ")" ++ ")" := by decide
  change "$ => prec.left(1, seq(" ++ String.intercalate ", " (words.map caseless) ++ "))" =
    "$ => " ++ ("prec.left(" ++ toString 1 ++ ", " ++
      ("seq(" ++ String.intercalate ", " (Pattern.texts _) ++ ")") ++ ")")
  rw [hwords, hopen, hclose]
  generalize String.intercalate ", " (words.map caseless) = body
  simp only [String.append_assoc]

/-- A body is printed as it is read, unless it is a definition of the configuration. -/
theorem RuleBody.text_eq {body : RuleBody} (h : ∀ text, body ≠ .verbatim text) :
    body.text = "$ => " ++ body.pattern.text := by
  cases body with
  | choices alternatives lineBreaks wrapper =>
    cases wrapper with
    | none => exact congrArg ("$ => " ++ ·) (text_choicePattern alternatives lineBreaks).symm
    | some wrapper => rfl
  | phrase words => exact text_phrase words
  | verbatim text => exact absurd rfl (h text)

/-- The rules that are read are those that are printed. -/
theorem generatedRules_eq {config : Config} {d : Draft}
    (h : ∀ name text, (name, RuleBody.verbatim text) ∉ d.rules.entries) :
    generatedRules config d = (generatedPatterns config d).map printedRule := by
  rw [generatedRules, generatedPatterns, List.map_append]
  congr 1
  · simp only [Table.map, List.map_map]
    apply List.map_congr_left
    intro e he
    have he' : e ∈ d.rules.entries := (List.mem_filter.1 he).1
    have hbody : e.2.text = "$ => " ++ e.2.pattern.text :=
      RuleBody.text_eq fun text htext => h e.1 text (htext ▸ he')
    simp only [Function.comp_apply, printedRule, hbody]
  · simp only [Table.map, List.map_map]
    exact List.map_congr_left fun e _ => rfl

/-! ## Languages for the names -/

mutual

/-- The texts an expression stands for when every name in it stands for a given language. -/
def Pattern.Accepts (L : String → List Terminal → Prop) : Pattern → List Terminal → Prop
  | .rule name, w => L name w
  | .literal quoted, w => ∃ text, quotedText? quoted = some text ∧ w = [.mark text]
  | .caseless word, w => MatchesSpellings word ∧ w = wordTerminals word
  | .seq parts, w => AcceptsAll L parts w
  | .choice _ alternatives, w => AcceptsAny L alternatives w
  | .optional body, w => w = [] ∨ body.Accepts L w
  | .left _ body, w => body.Accepts L w
  | .foreign _, _ => False

/-- The texts a sequence of expressions stands for. -/
def AcceptsAll (L : String → List Terminal → Prop) : List Pattern → List Terminal → Prop
  | [], w => w = []
  | p :: ps, w => ∃ u v, w = u ++ v ∧ p.Accepts L u ∧ AcceptsAll L ps v

/-- The texts that one of several expressions stands for. -/
def AcceptsAny (L : String → List Terminal → Prop) : List Pattern → List Terminal → Prop
  | [], _ => False
  | p :: ps, w => p.Accepts L w ∨ AcceptsAny L ps w

end

variable {L : String → List Terminal → Prop}

theorem acceptsAny_iff {ps : List Pattern} {w : List Terminal} :
    AcceptsAny L ps w ↔ ∃ p ∈ ps, p.Accepts L w := by
  induction ps with
  | nil => simp [AcceptsAny]
  | cons p ps ih => simp [AcceptsAny, ih]

theorem acceptsAll_append {ps qs : List Pattern} {w : List Terminal} :
    AcceptsAll L (ps ++ qs) w ↔ ∃ u v, w = u ++ v ∧ AcceptsAll L ps u ∧ AcceptsAll L qs v := by
  induction ps generalizing w with
  | nil =>
    simp only [List.nil_append, AcceptsAll]
    exact ⟨fun h => ⟨[], w, rfl, rfl, h⟩, by rintro ⟨_, _, rfl, rfl, h⟩; exact h⟩
  | cons p ps ih =>
    rw [List.cons_append]
    constructor
    · rintro ⟨u, v, rfl, hp, hv⟩
      obtain ⟨v₁, v₂, rfl, hps, hqs⟩ := ih.1 hv
      exact ⟨u ++ v₁, v₂, (List.append_assoc _ _ _).symm, ⟨u, v₁, rfl, hp, hps⟩, hqs⟩
    · rintro ⟨_, v, rfl, ⟨u₁, u₂, rfl, hp, hps⟩, hqs⟩
      exact ⟨u₁, u₂ ++ v, List.append_assoc _ _ _, hp, ih.2 ⟨u₂, v, rfl, hps, hqs⟩⟩

theorem acceptsAll_singleton {p : Pattern} {w : List Terminal} :
    AcceptsAll L [p] w ↔ p.Accepts L w := by
  simp [AcceptsAll]

/-- The languages hold what the rules ask of them: the body of each rule, and each name
without a rule. -/
structure Closed (rules : List (String × Pattern)) (L : String → List Terminal → Prop) : Prop where
  rule : ∀ {name p}, ruleOf? rules name = some p → ∀ {w}, p.Accepts L w → L name w
  name : ∀ {name}, ruleOf? rules name = none → L name [.name name]

/-- What the rules match lies in every closed family of languages. -/
theorem acceptsAll_of_matches {rules : List (String × Pattern)} (hL : Closed rules L)
    {ps : List Pattern} {w : List Terminal} (h : Matches rules ps w) : AcceptsAll L ps w := by
  induction h with
  | nil => rfl
  | rule hrule _ ih =>
    obtain ⟨u, v, rfl, hp, hps⟩ := ih
    exact ⟨u, v, rfl, hL.rule hrule hp, hps⟩
  | @name name _ w hrule _ ih => exact ⟨[.name name], w, rfl, hL.name hrule, ih⟩
  | literal htext _ ih => exact ⟨[_], _, rfl, ⟨_, htext, rfl⟩, ih⟩
  | caseless hword _ ih => exact ⟨_, _, rfl, ⟨hword, rfl⟩, ih⟩
  | seq _ ih =>
    obtain ⟨u, v, rfl, hparts, hps⟩ := acceptsAll_append.1 ih
    exact ⟨u, v, rfl, hparts, hps⟩
  | choice hp _ ih =>
    obtain ⟨u, v, rfl, hpu, hps⟩ := ih
    exact ⟨u, v, rfl, acceptsAny_iff.2 ⟨_, hp, hpu⟩, hps⟩
  | skip _ ih => exact ⟨[], _, rfl, .inl rfl, ih⟩
  | take _ ih =>
    obtain ⟨u, v, rfl, hp, hps⟩ := ih
    exact ⟨u, v, rfl, .inr hp, hps⟩
  | left _ ih =>
    obtain ⟨u, v, rfl, hp, hps⟩ := ih
    exact ⟨u, v, rfl, hp, hps⟩

/-! ## The expressions of a draft -/

variable {rules : List (String × Pattern)}

theorem matches_alternativePattern {symbols : List Symbol} {ps : List Pattern}
    {w : List Terminal} (h : Matches rules (symbols.map Symbol.pattern ++ ps) w) :
    Matches rules (alternativePattern symbols :: ps) w := by
  rcases symbols with _ | ⟨s, _ | ⟨s', symbols⟩⟩
  · exact .seq h
  · exact h
  · exact .seq h

theorem matches_choicePattern {alternatives : List (List Symbol)} {lineBreaks : Bool}
    {symbols : List Symbol} {ps : List Pattern} {w : List Terminal}
    (hsymbols : symbols ∈ alternatives) (h : Matches rules (symbols.map Symbol.pattern ++ ps) w) :
    Matches rules (choicePattern alternatives lineBreaks :: ps) w := by
  have halternative := matches_alternativePattern h
  rcases alternatives with _ | ⟨a, _ | ⟨a', alternatives⟩⟩
  · simp at hsymbols
  · rw [List.mem_singleton] at hsymbols
    exact hsymbols ▸ halternative
  · exact .choice (List.mem_map_of_mem hsymbols) halternative

theorem accepts_alternativePattern {symbols : List Symbol} {w : List Terminal} :
    (alternativePattern symbols).Accepts L w ↔ AcceptsAll L (symbols.map Symbol.pattern) w := by
  rcases symbols with _ | ⟨s, _ | ⟨s', symbols⟩⟩
  · rfl
  · exact acceptsAll_singleton.symm
  · rfl

theorem accepts_choicePattern {alternatives : List (List Symbol)} {lineBreaks : Bool}
    {w : List Terminal} :
    (choicePattern alternatives lineBreaks).Accepts L w ↔
      ∃ symbols ∈ alternatives, AcceptsAll L (symbols.map Symbol.pattern) w := by
  have hany : AcceptsAny L (alternatives.map alternativePattern) w ↔
      ∃ symbols ∈ alternatives, AcceptsAll L (symbols.map Symbol.pattern) w := by
    rw [acceptsAny_iff]
    constructor
    · rintro ⟨p, hp, hw⟩
      obtain ⟨symbols, hsymbols, rfl⟩ := List.mem_map.1 hp
      exact ⟨symbols, hsymbols, accepts_alternativePattern.1 hw⟩
    · rintro ⟨symbols, hsymbols, hw⟩
      exact ⟨_, List.mem_map_of_mem hsymbols, accepts_alternativePattern.2 hw⟩
  rcases alternatives with _ | ⟨a, _ | ⟨a', alternatives⟩⟩
  · exact hany
  · rw [← hany, List.map_singleton, AcceptsAny, AcceptsAny, or_false]
    rfl
  · exact hany

/-- The names in the rule of a production are those of its symbols. -/
theorem exists_symbol_of_mem_names {alternatives : List (List Symbol)} {lineBreaks : Bool}
    {name : String} (h : name ∈ (choicePattern alternatives lineBreaks).names) :
    ∃ symbols ∈ alternatives, ∃ s ∈ symbols, name ∈ s.pattern.names := by
  have halternative : ∀ symbols : List Symbol, name ∈ (alternativePattern symbols).names →
      ∃ s ∈ symbols, name ∈ s.pattern.names := by
    intro symbols hname
    rcases symbols with _ | ⟨s, _ | ⟨s', symbols⟩⟩
    · cases hname
    · exact ⟨s, List.mem_singleton.2 rfl, hname⟩
    · obtain ⟨p, hp, hname⟩ := Pattern.mem_namesOf.1 hname
      obtain ⟨s, hs, rfl⟩ := List.mem_map.1 hp
      exact ⟨s, hs, hname⟩
  rcases alternatives with _ | ⟨a, _ | ⟨a', alternatives⟩⟩
  · cases h
  · exact ⟨a, List.mem_singleton.2 rfl, halternative a h⟩
  · obtain ⟨p, hp, hname⟩ := Pattern.mem_namesOf.1 h
    obtain ⟨symbols, hsymbols, rfl⟩ := List.mem_map.1 hp
    exact ⟨symbols, hsymbols, halternative symbols hname⟩

/-- The expression of a rule made from a keyword, with what it stands for. -/
inductive IsHelper : Pattern → List Terminal → Prop
  | phrase (words : List String) (h : ∀ word ∈ words, MatchesSpellings (lowercase word)) :
      IsHelper (RuleBody.phrase words).pattern (phraseTerminals words)
  | keyword (word : String) (h : MatchesSpellings (lowercase word)) :
      IsHelper (keywordPattern word) (phraseTerminals [word])

theorem matches_caseless {words : List String}
    (hwords : ∀ word ∈ words, MatchesSpellings (lowercase word)) {ps : List Pattern}
    {w : List Terminal} (h : Matches rules ps w) :
    Matches rules ((words.map fun word => .caseless (lowercase word)) ++ ps)
      (phraseTerminals words ++ w) := by
  induction words with
  | nil => exact h
  | cons word words ih =>
    rw [phraseTerminals, List.flatMap_cons, List.append_assoc]
    exact .caseless (hwords word List.mem_cons_self)
      (ih fun word hword => hwords word (List.mem_cons_of_mem _ hword))

theorem acceptsAll_caseless {words : List String}
    (hwords : ∀ word ∈ words, MatchesSpellings (lowercase word)) {w : List Terminal} :
    AcceptsAll L (words.map fun word => .caseless (lowercase word)) w ↔
      w = phraseTerminals words := by
  induction words generalizing w with
  | nil => rfl
  | cons word words ih =>
    have hrest : ∀ word ∈ words, MatchesSpellings (lowercase word) :=
      fun word hword => hwords word (List.mem_cons_of_mem _ hword)
    rw [phraseTerminals, List.flatMap_cons]
    constructor
    · rintro ⟨u, v, rfl, ⟨-, rfl⟩, hv⟩
      rw [(ih hrest).1 hv]
      rfl
    · rintro rfl
      exact ⟨_, _, rfl, ⟨hwords word List.mem_cons_self, rfl⟩, (ih hrest).2 rfl⟩

theorem IsHelper.matches {p : Pattern} {u : List Terminal} (h : IsHelper p u)
    {ps : List Pattern} {w : List Terminal} (hw : Matches rules ps w) :
    Matches rules (p :: ps) (u ++ w) := by
  cases h with
  | phrase words hwords => exact .left (.seq (matches_caseless hwords hw))
  | keyword word hword => exact matches_caseless (List.forall_mem_singleton.2 hword) hw

theorem IsHelper.accepts_iff {p : Pattern} {u : List Terminal} (h : IsHelper p u)
    {w : List Terminal} : p.Accepts L w ↔ w = u := by
  cases h with
  | phrase words hwords => exact acceptsAll_caseless hwords
  | keyword word hword =>
    rw [← acceptsAll_caseless (L := L) (List.forall_mem_singleton.2 hword)]
    exact acceptsAll_singleton.symm

/-- The rule of a keyword refers to nothing. -/
theorem IsHelper.names_eq {p : Pattern} {u : List Terminal} (h : IsHelper p u) : p.names = [] := by
  rw [List.eq_nil_iff_forall_not_mem]
  intro name hname
  cases h with
  | phrase words _ =>
    obtain ⟨p, hp, hname⟩ := Pattern.mem_namesOf.1 hname
    obtain ⟨word, -, rfl⟩ := List.mem_map.1 hp
    cases hname
  | keyword word _ => cases hname

/-! ## Looking up rules -/

theorem mem_of_ruleOf? {name : String} {p : Pattern} (h : ruleOf? rules name = some p) :
    (name, p) ∈ rules :=
  List.mem_reverse.1 (Table.mem_of_lookup_eq_some h)

theorem ruleOf?_eq_none_iff {name : String} :
    ruleOf? rules name = none ↔ ∀ p, (name, p) ∉ rules := by
  rw [ruleOf?, List.lookup_eq_none_iff]
  constructor
  · intro h p hp
    have := h (name, p) (List.mem_reverse.2 hp)
    simp at this
  · intro h e he
    rw [bne_iff_ne]
    rintro rfl
    exact h e.2 (List.mem_reverse.1 he)

theorem exists_ruleOf? {name : String} {p : Pattern} (h : (name, p) ∈ rules) :
    ∃ q, ruleOf? rules name = some q := by
  cases hrule : ruleOf? rules name with
  | none => exact absurd h (ruleOf?_eq_none_iff.1 hrule p)
  | some q => exact ⟨q, rfl⟩

end CqlGlue.EditorGrammar
