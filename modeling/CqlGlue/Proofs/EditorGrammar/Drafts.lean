import CqlGlue.EditorGrammar.Build
import CqlGlue.Proofs.Table

/-!
# What a draft holds

A draft is built by visiting the productions of a listing in order. What one visit adds is
known, nothing is ever taken back, and a name that is not to be defined again has been defined,
unless it was taken from the start. Together these say which rules a whole listing gives.

## Main definitions
* `productionMeanings` are the meanings of the tokens of a production.
* `Draft.Registers` says that a draft has the rules a meaning relies on.
* `Draft.Extends` compares two drafts, `Draft.Settled` is the invariant on taken names.
* `Draft.Agrees` compares drafts that started with different names taken.
* `convertedProductions` are the productions of a listing that get rules.

## Main statements
* `mem_rules_buildRules` and `mem_keywords_buildRules` say where a rule comes from.
* `mem_keys_buildRules` says that every production has a rule of its name, and
  `mem_rules_of_mem_convertedProductions` when this is its own.
* `registers_buildRules` says that the tokens of a production that gets a rule get the rules they
  rely on.
* `convertedProductions_eq` says that all productions get rules, as long as no helper has the name
  of a production.
* `Draft.Agrees.run` says that taken names do not matter where nothing has them.
-/

namespace CqlGlue.EditorGrammar

open Text Listing

/-- The meanings of the tokens of a production in order. -/
def productionMeanings (config : Config) (g : Grammar) (p : Production) : List Meaning :=
  (p.choices.map (meanings config g)).flatten

theorem mem_productionMeanings {config : Config} {g : Grammar} {p : Production} {m : Meaning} :
    m ∈ productionMeanings config g p ↔
      ∃ choice ∈ p.choices, ∃ t ∈ choice, trimmed t ≠ "" ∧ meaning config g (trimmed t) = m := by
  simp only [productionMeanings, List.mem_flatten, List.mem_map]
  constructor
  · rintro ⟨_, ⟨choice, hchoice, rfl⟩, hm⟩
    obtain ⟨_, hkept, rfl⟩ := List.mem_map.1 hm
    obtain ⟨htrimmed, hne⟩ := List.mem_filter.1 hkept
    obtain ⟨t, ht, rfl⟩ := List.mem_map.1 htrimmed
    exact ⟨choice, hchoice, t, ht, by simpa using hne, rfl⟩
  · rintro ⟨choice, hchoice, t, ht, hne, rfl⟩
    refine ⟨_, ⟨choice, hchoice, rfl⟩, List.mem_map.2 ⟨trimmed t, ?_, rfl⟩⟩
    exact List.mem_filter.2 ⟨List.mem_map_of_mem ht, by simpa using hne⟩

/-- The rule of a production. -/
def productionBody (config : Config) (g : Grammar) (name : String) (p : Production) : RuleBody :=
  .choices (((p.choices.map (meanings config g)).map (·.map Meaning.symbol)).filter (!·.isEmpty))
    (config.lineBreakRules.contains name) (config.precedence.get? name)

namespace Draft

/-- The draft after visiting productions in order. -/
def run (config : Config) (g : Grammar) (d : Draft) (es : List (String × Production)) : Draft :=
  es.foldl (fun d e => d.visit config g e.1 e.2) d

variable {config : Config} {g : Grammar} {d d' : Draft}

/-! ## One meaning -/

/-- Defines a helper where its name is not taken. -/
def addPhrase (d : Draft) : Option (String × List String) → Draft
  | some (name, words) =>
    if name ∈ d.visited then d
    else { d with rules := d.rules.insert name (.phrase words), visited := name :: d.visited }
  | none => d

/-- Defines a keyword where it is new. -/
def addKeyword (d : Draft) : Option (String × String) → Draft
  | some (name, word) => { d with keywords := d.keywords.insertNew name word }
  | none => d

theorem register_eq (d : Draft) (m : Meaning) :
    d.register m = (d.addPhrase m.phrase).addKeyword m.keyword := by
  obtain ⟨symbol, phrase, keyword⟩ := m
  cases phrase with
  | none => cases keyword <;> rfl
  | some phrase =>
    simp only [register, addPhrase, List.contains_iff_mem]
    cases keyword <;> rfl

@[simp] theorem rules_addKeyword (d : Draft) (keyword : Option (String × String)) :
    (d.addKeyword keyword).rules = d.rules := by
  cases keyword <;> rfl

@[simp] theorem visited_addKeyword (d : Draft) (keyword : Option (String × String)) :
    (d.addKeyword keyword).visited = d.visited := by
  cases keyword <;> rfl

@[simp] theorem keywords_addPhrase (d : Draft) (phrase : Option (String × List String)) :
    (d.addPhrase phrase).keywords = d.keywords := by
  cases phrase with
  | none => rfl
  | some phrase =>
    rw [addPhrase]
    split <;> rfl

theorem mem_visited_register {m : Meaning} {name : String} :
    name ∈ (d.register m).visited ↔
      name ∈ d.visited ∨ ∃ words, m.phrase = some (name, words) := by
  rw [register_eq, visited_addKeyword]
  cases m.phrase with
  | none => simp [addPhrase]
  | some phrase =>
    obtain ⟨other, words⟩ := phrase
    rw [addPhrase]
    split
    · rename_i h
      constructor
      · exact Or.inl
      · rintro (hname | ⟨ws, hws⟩)
        · exact hname
        · cases hws
          exact h
    · rw [List.mem_cons]
      constructor
      · rintro (rfl | hname)
        · exact .inr ⟨words, rfl⟩
        · exact .inl hname
      · rintro (hname | ⟨ws, hws⟩)
        · exact .inr hname
        · cases hws
          exact .inl rfl

theorem mem_keywords_keys_register {m : Meaning} {name : String} :
    name ∈ (d.register m).keywords.keys ↔
      name ∈ d.keywords.keys ∨ ∃ word, m.keyword = some (name, word) := by
  rw [register_eq]
  cases m.keyword with
  | none => simp [addKeyword]
  | some keyword =>
    obtain ⟨other, word⟩ := keyword
    rw [addKeyword, keywords_addPhrase, Table.mem_keys_insertNew]
    constructor
    · rintro (rfl | hname)
      · exact .inr ⟨word, rfl⟩
      · exact .inl hname
    · rintro (hname | ⟨w, hw⟩)
      · exact .inr hname
      · cases hw
        exact .inl rfl

/-- A rule is there before the meaning, or it is the helper of the meaning and its name was not
taken. -/
theorem mem_rules_register {m : Meaning} {name : String} {body : RuleBody}
    (h : (name, body) ∈ (d.register m).rules.entries) :
    (name, body) ∈ d.rules.entries ∨
      name ∉ d.visited ∧ ∃ words, m.phrase = some (name, words) ∧ body = .phrase words := by
  rw [register_eq, rules_addKeyword] at h
  cases hphrase : m.phrase with
  | none =>
    rw [hphrase] at h
    exact .inl h
  | some phrase =>
    obtain ⟨other, words⟩ := phrase
    rw [hphrase, addPhrase] at h
    split at h
    · exact .inl h
    · rename_i hfree
      rcases Table.mem_entries_insert h with heq | h
      · cases heq
        exact .inr ⟨hfree, words, rfl, rfl⟩
      · exact .inl h

theorem mem_keywords_register {m : Meaning} {name word : String}
    (h : (name, word) ∈ (d.register m).keywords.entries) :
    (name, word) ∈ d.keywords.entries ∨ m.keyword = some (name, word) := by
  rw [register_eq] at h
  cases hkeyword : m.keyword with
  | none =>
    rw [hkeyword, addKeyword, keywords_addPhrase] at h
    exact .inl h
  | some keyword =>
    obtain ⟨other, word'⟩ := keyword
    rw [hkeyword, addKeyword, keywords_addPhrase] at h
    rcases Table.mem_entries_insertNew h with heq | h
    · cases heq
      exact .inr rfl
    · exact .inl h

/-! ## Growth -/

/-- The second draft holds at least what the first one holds. -/
structure Extends (d d' : Draft) : Prop where
  rules : ∀ name ∈ d.rules.keys, name ∈ d'.rules.keys
  keywords : ∀ name ∈ d.keywords.keys, name ∈ d'.keywords.keys
  visited : ∀ name ∈ d.visited, name ∈ d'.visited

theorem Extends.refl (d : Draft) : Extends d d := ⟨fun _ h => h, fun _ h => h, fun _ h => h⟩

theorem Extends.trans {d₁ d₂ d₃ : Draft} (h₁ : Extends d₁ d₂) (h₂ : Extends d₂ d₃) :
    Extends d₁ d₃ where
  rules name h := h₂.rules name (h₁.rules name h)
  keywords name h := h₂.keywords name (h₁.keywords name h)
  visited name h := h₂.visited name (h₁.visited name h)

theorem extends_register (d : Draft) (m : Meaning) : Extends d (d.register m) where
  rules name h := by
    rw [register_eq, rules_addKeyword]
    cases m.phrase with
    | none => exact h
    | some phrase =>
      rw [addPhrase]
      split
      · exact h
      · exact Table.mem_keys_insert.2 (.inr h)
  keywords _ h := mem_keywords_keys_register.2 (.inl h)
  visited _ h := mem_visited_register.2 (.inl h)

theorem extends_foldl_register (d : Draft) (ms : List Meaning) :
    Extends d (ms.foldl register d) := by
  induction ms generalizing d with
  | nil => exact .refl d
  | cons m ms ih => exact (extends_register d m).trans (ih _)

/-- The draft has the rules that the meaning relies on. -/
structure Registers (d : Draft) (m : Meaning) : Prop where
  phrase : ∀ name words, m.phrase = some (name, words) → name ∈ d.visited
  keyword : ∀ name word, m.keyword = some (name, word) → name ∈ d.keywords.keys

theorem Registers.extend {m : Meaning} (h : Registers d m) (hd : Extends d d') :
    Registers d' m where
  phrase name words hm := hd.visited name (h.phrase name words hm)
  keyword name word hm := hd.keywords name (h.keyword name word hm)

theorem registers_register (d : Draft) (m : Meaning) : Registers (d.register m) m where
  phrase _ words hm := mem_visited_register.2 (.inr ⟨words, hm⟩)
  keyword _ word hm := mem_keywords_keys_register.2 (.inr ⟨word, hm⟩)

theorem registers_foldl_register {ms : List Meaning} {m : Meaning} (hm : m ∈ ms) (d : Draft) :
    Registers (ms.foldl register d) m := by
  induction ms generalizing d with
  | nil => simp at hm
  | cons m' ms ih =>
    rcases List.mem_cons.1 hm with rfl | hm
    · exact (registers_register d m).extend (extends_foldl_register _ ms)
    · exact ih hm _

/-! ## One production -/

theorem visit_of_mem {name : String} (p : Production) (h : name ∈ d.visited) :
    d.visit config g name p = d := by
  rw [visit, if_pos (by simpa using h)]

/-- The draft while the meanings of a production are registered. -/
def enter (config : Config) (g : Grammar) (d : Draft) (name : String) (p : Production) : Draft :=
  (productionMeanings config g p).foldl register { d with visited := name :: d.visited }

theorem visit_of_not_mem {name : String} (p : Production) (h : name ∉ d.visited) :
    d.visit config g name p =
      { d.enter config g name p with
        rules :=
          (d.enter config g name p).rules.insert name (productionBody config g name p) } := by
  rw [visit, if_neg (by simpa using h)]
  rfl

theorem extends_enter (d : Draft) (name : String) (p : Production) :
    Extends d (d.enter config g name p) := by
  refine .trans ?_ (extends_foldl_register _ _)
  exact ⟨fun _ h => h, fun _ h => h, fun _ h => List.mem_cons_of_mem _ h⟩

theorem extends_visit (d : Draft) (name : String) (p : Production) :
    Extends d (d.visit config g name p) := by
  by_cases h : name ∈ d.visited
  · rw [visit_of_mem p h]
    exact .refl d
  · rw [visit_of_not_mem p h]
    have henter : Extends d (d.enter config g name p) := extends_enter d name p
    apply henter.trans
    exact ⟨fun _ h => Table.mem_keys_insert.2 (.inr h), fun _ h => h, fun _ h => h⟩

theorem mem_visited_foldl_register {ms : List Meaning} {name : String}
    (h : name ∈ (ms.foldl register d).visited) :
    name ∈ d.visited ∨ ∃ m ∈ ms, ∃ words, m.phrase = some (name, words) := by
  induction ms generalizing d with
  | nil => exact .inl h
  | cons m ms ih =>
    rcases ih h with h | ⟨m', hm', hphrase⟩
    · rcases mem_visited_register.1 h with h | hphrase
      · exact .inl h
      · exact .inr ⟨m, List.mem_cons_self, hphrase⟩
    · exact .inr ⟨m', List.mem_cons_of_mem _ hm', hphrase⟩

/-- A visit takes the name of the production and the names of its helpers. -/
theorem mem_visited_visit {name other : String} {p : Production}
    (h : other ∈ (d.visit config g name p).visited) :
    other ∈ d.visited ∨ other = name ∨
      ∃ m ∈ productionMeanings config g p, ∃ words, m.phrase = some (other, words) := by
  by_cases hname : name ∈ d.visited
  · rw [visit_of_mem p hname] at h
    exact .inl h
  · rw [visit_of_not_mem p hname] at h
    rcases mem_visited_foldl_register h with h | hphrase
    · rcases List.mem_cons.1 h with h | h
      · exact .inr (.inl h)
      · exact .inl h
    · exact .inr (.inr hphrase)

theorem mem_visited_self (d : Draft) (name : String) (p : Production) :
    name ∈ (d.visit config g name p).visited := by
  by_cases h : name ∈ d.visited
  · rw [visit_of_mem p h]
    exact h
  · rw [visit_of_not_mem p h]
    exact (extends_foldl_register _ _).visited name List.mem_cons_self

theorem registers_visit {name : String} {p : Production} {m : Meaning} (h : name ∉ d.visited)
    (hm : m ∈ productionMeanings config g p) : Registers (d.visit config g name p) m := by
  rw [visit_of_not_mem p h]
  have henter : Registers (d.enter config g name p) m := registers_foldl_register hm _
  exact ⟨henter.phrase, henter.keyword⟩

theorem mem_rules_foldl_register {ms : List Meaning} {name : String} {body : RuleBody}
    (h : (name, body) ∈ (ms.foldl register d).rules.entries) :
    (name, body) ∈ d.rules.entries ∨
      name ∉ d.visited ∧
        ∃ m ∈ ms, ∃ words, m.phrase = some (name, words) ∧ body = .phrase words := by
  induction ms generalizing d with
  | nil => exact .inl h
  | cons m ms ih =>
    rcases ih h with h | ⟨hfree, m', hm', hphrase⟩
    · rcases mem_rules_register h with h | ⟨hfree, hphrase⟩
      · exact .inl h
      · exact .inr ⟨hfree, m, List.mem_cons_self, hphrase⟩
    · have hfree' : name ∉ d.visited := mt ((extends_register d m).visited name) hfree
      exact .inr ⟨hfree', m', List.mem_cons_of_mem _ hm', hphrase⟩

theorem mem_keywords_foldl_register {ms : List Meaning} {name word : String}
    (h : (name, word) ∈ (ms.foldl register d).keywords.entries) :
    (name, word) ∈ d.keywords.entries ∨ ∃ m ∈ ms, m.keyword = some (name, word) := by
  induction ms generalizing d with
  | nil => exact .inl h
  | cons m ms ih =>
    rcases ih h with h | ⟨m', hm', hkeyword⟩
    · rcases mem_keywords_register h with h | hkeyword
      · exact .inl h
      · exact .inr ⟨m, List.mem_cons_self, hkeyword⟩
    · exact .inr ⟨m', List.mem_cons_of_mem _ hm', hkeyword⟩

/-- A visit adds the rule of the production and the helpers of its tokens. -/
theorem mem_rules_visit {name other : String} {p : Production} {body : RuleBody}
    (h : (other, body) ∈ (d.visit config g name p).rules.entries) :
    (other, body) ∈ d.rules.entries ∨
      (other = name ∧ body = productionBody config g name p) ∨
      other ∉ d.visited ∧ ∃ m ∈ productionMeanings config g p, ∃ words,
        m.phrase = some (other, words) ∧ body = .phrase words := by
  by_cases hname : name ∈ d.visited
  · rw [visit_of_mem p hname] at h
    exact .inl h
  · rw [visit_of_not_mem p hname] at h
    rcases Table.mem_entries_insert h with heq | h
    · cases heq
      exact .inr (.inl ⟨rfl, rfl⟩)
    · rcases mem_rules_foldl_register h with h | ⟨hfree, hphrase⟩
      · exact .inl h
      · exact .inr (.inr ⟨fun hmem => hfree (List.mem_cons_of_mem _ hmem), hphrase⟩)

theorem mem_keywords_visit {name other word : String} {p : Production}
    (h : (other, word) ∈ (d.visit config g name p).keywords.entries) :
    (other, word) ∈ d.keywords.entries ∨
      ∃ m ∈ productionMeanings config g p, m.keyword = some (other, word) := by
  by_cases hname : name ∈ d.visited
  · rw [visit_of_mem p hname] at h
    exact .inl h
  · rw [visit_of_not_mem p hname] at h
    exact mem_keywords_foldl_register (d := { d with visited := name :: d.visited }) h

/-! ## Taken names -/

/-- Every name that is not to be defined again has a rule or was taken from the start. -/
def Settled (taken : List String) (d : Draft) : Prop :=
  ∀ name ∈ d.visited, name ∈ taken ∨ name ∈ d.rules.keys

theorem settled_register {taken : List String} (h : Settled taken d) (m : Meaning) :
    Settled taken (d.register m) := by
  intro name hname
  rw [register_eq, visited_addKeyword] at hname
  rw [register_eq, rules_addKeyword]
  cases hphrase : m.phrase with
  | none =>
    rw [hphrase] at hname
    exact h name hname
  | some phrase =>
    obtain ⟨other, words⟩ := phrase
    rw [hphrase, addPhrase] at hname
    rw [addPhrase]
    split at hname
    · rename_i hother
      rw [if_pos hother]
      exact h name hname
    · rename_i hother
      rw [if_neg hother]
      rcases List.mem_cons.1 hname with rfl | hname
      · exact .inr (Table.mem_keys_insert.2 (.inl rfl))
      · exact (h name hname).imp_right fun hkey => Table.mem_keys_insert.2 (.inr hkey)

theorem settled_foldl_register {taken : List String} (h : Settled taken d) (ms : List Meaning) :
    Settled taken (ms.foldl register d) := by
  induction ms generalizing d with
  | nil => exact h
  | cons m ms ih => exact ih (settled_register h m)

theorem settled_visit {taken : List String} (h : Settled taken d) (name : String)
    (p : Production) : Settled taken (d.visit config g name p) := by
  by_cases hname : name ∈ d.visited
  · rw [visit_of_mem p hname]
    exact h
  · rw [visit_of_not_mem p hname]
    -- The name of the production is taken while its own rule is still missing.
    have henter : Settled (name :: taken) (d.enter config g name p) := by
      refine settled_foldl_register ?_ _
      intro other hother
      rcases List.mem_cons.1 hother with rfl | hother
      · exact .inl List.mem_cons_self
      · exact (h other hother).imp_left (List.mem_cons_of_mem _)
    intro other hother
    rcases henter other hother with htaken | hkey
    · rcases List.mem_cons.1 htaken with rfl | htaken
      · exact .inr (Table.mem_keys_insert.2 (.inl rfl))
      · exact .inl htaken
    · exact .inr (Table.mem_keys_insert.2 (.inr hkey))

/-! ## All productions -/

theorem extends_run (d : Draft) (es : List (String × Production)) :
    Extends d (d.run config g es) := by
  induction es generalizing d with
  | nil => exact .refl d
  | cons e es ih => exact (extends_visit d e.1 e.2).trans (ih _)

theorem settled_run {taken : List String} (h : Settled taken d)
    (es : List (String × Production)) : Settled taken (d.run config g es) := by
  induction es generalizing d with
  | nil => exact h
  | cons e es ih => exact ih (settled_visit h e.1 e.2)

theorem mem_visited_run {es : List (String × Production)} {e : String × Production}
    (he : e ∈ es) (d : Draft) : e.1 ∈ (d.run config g es).visited := by
  induction es generalizing d with
  | nil => simp at he
  | cons e' es ih =>
    rcases List.mem_cons.1 he with rfl | he
    · exact (extends_run _ es).visited _ (mem_visited_self d e.1 e.2)
    · exact ih he _

/-- The productions that a run gives rules to: those whose names are not taken when their turn
comes. -/
def converted (config : Config) (g : Grammar) (d : Draft) :
    List (String × Production) → List (String × Production)
  | [] => []
  | e :: es =>
    if e.1 ∈ d.visited then converted config g d es
    else e :: converted config g (d.visit config g e.1 e.2) es

theorem converted_cons_of_mem {e : String × Production} (h : e.1 ∈ d.visited)
    (es : List (String × Production)) :
    d.converted config g (e :: es) = d.converted config g es := by
  rw [converted, if_pos h]

theorem converted_cons_of_not_mem {e : String × Production} (h : e.1 ∉ d.visited)
    (es : List (String × Production)) :
    d.converted config g (e :: es) =
      e :: (d.visit config g e.1 e.2).converted config g es := by
  rw [converted, if_neg h]

/-- A production that is not visited does not count. -/
theorem run_cons_of_mem {e : String × Production} (h : e.1 ∈ d.visited)
    (es : List (String × Production)) :
    d.run config g (e :: es) = d.run config g es := by
  rw [run, List.foldl_cons, visit_of_mem e.2 h]
  rfl

theorem mem_of_mem_converted {es : List (String × Production)} {e : String × Production}
    (h : e ∈ d.converted config g es) : e ∈ es := by
  induction es generalizing d with
  | nil => exact h
  | cons e' es ih =>
    by_cases hmem : e'.1 ∈ d.visited
    · rw [converted_cons_of_mem hmem] at h
      exact List.mem_cons_of_mem _ (ih h)
    · rw [converted_cons_of_not_mem hmem] at h
      rcases List.mem_cons.1 h with rfl | h
      · exact List.mem_cons_self
      · exact List.mem_cons_of_mem _ (ih h)

/-- As long as no name to be visited is taken before its turn, every production gets a rule. -/
theorem converted_eq_self {es : List (String × Production)} {d : Draft}
    (hd : ∀ e ∈ es, e.1 ∉ d.visited) (hdistinct : (es.map Prod.fst).Nodup)
    (hfresh : ∀ e ∈ es, ∀ m ∈ productionMeanings config g e.2, ∀ name words,
      m.phrase = some (name, words) → name ∉ es.map Prod.fst) :
    d.converted config g es = es := by
  induction es generalizing d with
  | nil => rfl
  | cons e es ih =>
    rw [List.map_cons, List.nodup_cons] at hdistinct
    rw [converted_cons_of_not_mem (hd e List.mem_cons_self), ih ?_ hdistinct.2 ?_]
    · intro e' he' hvisited
      have hkey : e'.1 ∈ es.map Prod.fst := List.mem_map_of_mem he'
      rcases mem_visited_visit hvisited with h | h | ⟨m, hm, words, hphrase⟩
      · exact hd e' (List.mem_cons_of_mem _ he') h
      · exact hdistinct.1 (h ▸ hkey)
      · exact hfresh e List.mem_cons_self m hm e'.1 words hphrase (List.mem_cons_of_mem _ hkey)
    · intro e' he' m hm name words hphrase hkey
      exact hfresh e' (List.mem_cons_of_mem _ he') m hm name words hphrase
        (List.mem_cons_of_mem _ hkey)

theorem mem_rules_run {es : List (String × Production)} {name : String} {body : RuleBody}
    (h : (name, body) ∈ (d.run config g es).rules.entries) :
    (name, body) ∈ d.rules.entries ∨
      (∃ p, (name, p) ∈ d.converted config g es ∧ body = productionBody config g name p) ∨
      name ∉ d.visited ∧ ∃ e ∈ d.converted config g es, ∃ m ∈ productionMeanings config g e.2,
        ∃ words, m.phrase = some (name, words) ∧ body = .phrase words := by
  induction es generalizing d with
  | nil => exact .inl h
  | cons e es ih =>
    by_cases hmem : e.1 ∈ d.visited
    · rw [run_cons_of_mem hmem] at h
      rw [converted_cons_of_mem hmem]
      exact ih h
    · rw [converted_cons_of_not_mem hmem]
      rcases ih h with h | ⟨p, hp, hbody⟩ | ⟨hfree, e', he', hphrase⟩
      · rcases mem_rules_visit h with h | ⟨rfl, hbody⟩ | ⟨hfree, hphrase⟩
        · exact .inl h
        · exact .inr (.inl ⟨e.2, List.mem_cons_self, hbody⟩)
        · exact .inr (.inr ⟨hfree, e, List.mem_cons_self, hphrase⟩)
      · exact .inr (.inl ⟨p, List.mem_cons_of_mem _ hp, hbody⟩)
      · have hfree' : name ∉ d.visited := mt ((extends_visit d e.1 e.2).visited name) hfree
        exact .inr (.inr ⟨hfree', e', List.mem_cons_of_mem _ he', hphrase⟩)

theorem mem_keywords_run {es : List (String × Production)} {name word : String}
    (h : (name, word) ∈ (d.run config g es).keywords.entries) :
    (name, word) ∈ d.keywords.entries ∨
      ∃ e ∈ d.converted config g es, ∃ m ∈ productionMeanings config g e.2,
        m.keyword = some (name, word) := by
  induction es generalizing d with
  | nil => exact .inl h
  | cons e es ih =>
    by_cases hmem : e.1 ∈ d.visited
    · rw [run_cons_of_mem hmem] at h
      rw [converted_cons_of_mem hmem]
      exact ih h
    · rw [converted_cons_of_not_mem hmem]
      rcases ih h with h | ⟨e', he', hkeyword⟩
      · rcases mem_keywords_visit h with h | hkeyword
        · exact .inl h
        · exact .inr ⟨e, List.mem_cons_self, hkeyword⟩
      · exact .inr ⟨e', List.mem_cons_of_mem _ he', hkeyword⟩

/-- The rule of a name that is taken is not changed. -/
theorem get?_rules_register {name : String} (h : name ∈ d.visited) (m : Meaning) :
    (d.register m).rules.get? name = d.rules.get? name := by
  rw [register_eq, rules_addKeyword]
  cases m.phrase with
  | none => rfl
  | some phrase =>
    obtain ⟨other, words⟩ := phrase
    rw [addPhrase]
    split
    · rfl
    · rename_i hfree
      have hne : name ≠ other := fun heq => hfree (heq ▸ h)
      exact Table.get?_insert.trans (if_neg hne)

theorem get?_rules_foldl_register {name : String} (h : name ∈ d.visited) (ms : List Meaning) :
    (ms.foldl register d).rules.get? name = d.rules.get? name := by
  induction ms generalizing d with
  | nil => rfl
  | cons m ms ih =>
    rw [List.foldl_cons, ih ((extends_register d m).visited name h), get?_rules_register h]

theorem get?_rules_visit {name : String} (h : name ∈ d.visited) (other : String)
    (p : Production) : (d.visit config g other p).rules.get? name = d.rules.get? name := by
  by_cases hother : other ∈ d.visited
  · rw [visit_of_mem p hother]
  · have henter : (d.enter config g other p).rules.get? name = d.rules.get? name :=
      get?_rules_foldl_register (d := { d with visited := other :: d.visited })
        (List.mem_cons_of_mem _ h) _
    have hne : name ≠ other := fun heq => hother (heq ▸ h)
    rw [visit_of_not_mem p hother, ← henter]
    exact Table.get?_insert.trans (if_neg hne)

theorem get?_rules_run {name : String} (h : name ∈ d.visited)
    (es : List (String × Production)) :
    (d.run config g es).rules.get? name = d.rules.get? name := by
  induction es generalizing d with
  | nil => rfl
  | cons e es ih =>
    exact (ih ((extends_visit d e.1 e.2).visited name h)).trans (get?_rules_visit h e.1 e.2)

/-- A production that gets a rule keeps it. -/
theorem get?_rules_run_of_mem_converted {es : List (String × Production)}
    {e : String × Production} (h : e ∈ d.converted config g es) :
    (d.run config g es).rules.get? e.1 = some (productionBody config g e.1 e.2) := by
  induction es generalizing d with
  | nil => cases h
  | cons e' es ih =>
    by_cases hmem : e'.1 ∈ d.visited
    · rw [converted_cons_of_mem hmem] at h
      rw [run_cons_of_mem hmem]
      exact ih h
    · rw [converted_cons_of_not_mem hmem] at h
      rcases List.mem_cons.1 h with rfl | h
      · refine (get?_rules_run (mem_visited_self d e.1 e.2) es).trans ?_
        rw [visit_of_not_mem e.2 hmem]
        exact Table.get?_insert.trans (if_pos rfl)
      · exact ih h

/-- The tokens of a production that gets a rule get the rules they rely on. -/
theorem registers_run {es : List (String × Production)} {e : String × Production}
    (he : e ∈ d.converted config g es) {m : Meaning}
    (hm : m ∈ productionMeanings config g e.2) : Registers (d.run config g es) m := by
  induction es generalizing d with
  | nil => simp [converted] at he
  | cons e' es ih =>
    by_cases hmem : e'.1 ∈ d.visited
    · rw [converted_cons_of_mem hmem] at he
      rw [run_cons_of_mem hmem]
      exact ih he
    · rw [converted_cons_of_not_mem hmem] at he
      rcases List.mem_cons.1 he with rfl | he
      · exact (registers_visit hmem hm).extend (extends_run _ es)
      · exact ih he

/-! ## Taken names that nothing is called by -/

/-- Drafts with the same rules that have taken the same names, apart from some. -/
structure Agrees (unused : List String) (d d' : Draft) : Prop where
  rules : d.rules = d'.rules
  keywords : d.keywords = d'.keywords
  visited : ∀ name, name ∉ unused → (name ∈ d.visited ↔ name ∈ d'.visited)

/-- The meaning has no helper with one of the names. -/
def Avoids (unused : List String) (m : Meaning) : Prop :=
  ∀ name words, m.phrase = some (name, words) → name ∉ unused

namespace Agrees

variable {unused : List String}

theorem addPhrase (h : Agrees unused d d') {m : Meaning} (hm : Avoids unused m) :
    Agrees unused (d.addPhrase m.phrase) (d'.addPhrase m.phrase) := by
  cases hphrase : m.phrase with
  | none => exact h
  | some phrase =>
    obtain ⟨name, words⟩ := phrase
    have hname := h.visited name (hm name words hphrase)
    simp only [Draft.addPhrase]
    by_cases hvisited : name ∈ d.visited
    · rw [if_pos hvisited, if_pos (hname.1 hvisited)]
      exact h
    · rw [if_neg hvisited, if_neg (mt hname.2 hvisited)]
      refine ⟨by rw [h.rules], h.keywords, fun other hother => ?_⟩
      simp only [List.mem_cons, h.visited other hother]

theorem addKeyword (h : Agrees unused d d') (keyword : Option (String × String)) :
    Agrees unused (d.addKeyword keyword) (d'.addKeyword keyword) := by
  cases keyword with
  | none => exact h
  | some keyword => exact ⟨h.rules, by simp only [Draft.addKeyword, h.keywords], h.visited⟩

theorem register (h : Agrees unused d d') {m : Meaning} (hm : Avoids unused m) :
    Agrees unused (d.register m) (d'.register m) := by
  rw [register_eq, register_eq]
  exact (h.addPhrase hm).addKeyword _

theorem foldl_register (h : Agrees unused d d') {ms : List Meaning}
    (hms : ∀ m ∈ ms, Avoids unused m) :
    Agrees unused (ms.foldl Draft.register d) (ms.foldl Draft.register d') := by
  induction ms generalizing d d' with
  | nil => exact h
  | cons m ms ih =>
    exact ih (h.register (hms m List.mem_cons_self)) fun m' hm' =>
      hms m' (List.mem_cons_of_mem _ hm')

theorem visit (h : Agrees unused d d') {name : String} {p : Production} (hname : name ∉ unused)
    (hp : ∀ m ∈ productionMeanings config g p, Avoids unused m) :
    Agrees unused (d.visit config g name p) (d'.visit config g name p) := by
  have hvisited := h.visited name hname
  by_cases hmem : name ∈ d.visited
  · rw [visit_of_mem p hmem, visit_of_mem p (hvisited.1 hmem)]
    exact h
  · have hstart : Agrees unused { d with visited := name :: d.visited }
        { d' with visited := name :: d'.visited } := by
      refine ⟨h.rules, h.keywords, fun other hother => ?_⟩
      simp only [List.mem_cons, h.visited other hother]
    have henter : Agrees unused (d.enter config g name p) (d'.enter config g name p) :=
      hstart.foldl_register hp
    rw [visit_of_not_mem p hmem, visit_of_not_mem p (mt hvisited.2 hmem)]
    exact ⟨by simp only [henter.rules], henter.keywords, henter.visited⟩

/-- Productions give the same rules whether or not names that none of them is called by are
taken. -/
theorem run (h : Agrees unused d d') {es : List (String × Production)}
    (hnames : ∀ e ∈ es, e.1 ∉ unused)
    (hes : ∀ e ∈ es, ∀ m ∈ productionMeanings config g e.2, Avoids unused m) :
    Agrees unused (d.run config g es) (d'.run config g es) := by
  induction es generalizing d d' with
  | nil => exact h
  | cons e es ih =>
    refine ih (h.visit (hnames e List.mem_cons_self) (hes e List.mem_cons_self)) ?_ ?_
    · exact fun e' he' => hnames e' (List.mem_cons_of_mem _ he')
    · exact fun e' he' => hes e' (List.mem_cons_of_mem _ he')

end Agrees

end Draft

/-! ## The draft of a listing -/

variable {config : Config} {g : Grammar}

/-- The names taken before the first production is visited. -/
def takenNames (config : Config) (g : Grammar) : List String :=
  (replacements config g).map Prod.fst

theorem buildRules_eq (config : Config) (g : Grammar) :
    buildRules config g =
      Draft.run config (splice config g) ⟨Table.empty, Table.empty, takenNames config g⟩
        (splice config g).entries :=
  rfl

/-- Without definitions in the configuration the draft is not changed at the end. -/
theorem build_eq (h : config.ruleOverrides.entries = []) :
    build config g = buildRules config g := by
  rw [build, Draft.override, h]
  rfl

/-- The productions of a listing that get rules. -/
def convertedProductions (config : Config) (g : Grammar) : List (String × Production) :=
  Draft.converted config (splice config g) ⟨Table.empty, Table.empty, takenNames config g⟩
    (splice config g).entries

theorem get?_of_mem_convertedProductions {e : String × Production}
    (h : e ∈ convertedProductions config g) : (splice config g).get? e.1 = some e.2 :=
  Table.get?_eq_some_iff.2 (Draft.mem_of_mem_converted h)

/-- The meanings of all tokens of a listing. -/
def usedMeanings (config : Config) (g : Grammar) : List Meaning :=
  g.values.flatMap (productionMeanings config g)

theorem mem_usedMeanings {m : Meaning} :
    m ∈ usedMeanings config g ↔ ∃ e ∈ g.entries, m ∈ productionMeanings config g e.2 := by
  simp only [usedMeanings, Table.values, List.mem_flatMap, List.mem_map]
  constructor
  · rintro ⟨_, ⟨e, he, rfl⟩, hm⟩
    exact ⟨e, he, hm⟩
  · rintro ⟨e, he, hm⟩
    exact ⟨e.2, ⟨e, he, rfl⟩, hm⟩

/-- The meanings of the tokens in the productions that get rules. -/
def convertedMeanings (config : Config) (g : Grammar) : List Meaning :=
  (convertedProductions config g).flatMap fun e => productionMeanings config (splice config g) e.2

theorem mem_convertedMeanings {m : Meaning} :
    m ∈ convertedMeanings config g ↔
      ∃ e ∈ convertedProductions config g, m ∈ productionMeanings config (splice config g) e.2 :=
  List.mem_flatMap

theorem mem_usedMeanings_of_mem_convertedMeanings {m : Meaning}
    (h : m ∈ convertedMeanings config g) : m ∈ usedMeanings config (splice config g) := by
  obtain ⟨e, he, hm⟩ := mem_convertedMeanings.1 h
  exact mem_usedMeanings.2 ⟨e, Draft.mem_of_mem_converted he, hm⟩

/-- A rule is that of a production, or the helper of a keyword in use whose name is not taken. -/
theorem mem_rules_buildRules {name : String} {body : RuleBody}
    (h : (name, body) ∈ (buildRules config g).rules.entries) :
    (∃ p, (name, p) ∈ convertedProductions config g ∧
        body = productionBody config (splice config g) name p) ∨
      name ∉ takenNames config g ∧ ∃ m ∈ convertedMeanings config g, ∃ words,
        m.phrase = some (name, words) ∧ body = .phrase words := by
  rw [buildRules_eq] at h
  rcases Draft.mem_rules_run h with h | hproduction | ⟨hfree, e, he, m, hm, hphrase⟩
  · simp [Table.empty] at h
  · exact .inl hproduction
  · exact .inr ⟨hfree, m, mem_convertedMeanings.2 ⟨e, he, hm⟩, hphrase⟩

/-- A production that gets a rule has it in the end. -/
theorem mem_rules_of_mem_convertedProductions {e : String × Production}
    (h : e ∈ convertedProductions config g) :
    (e.1, productionBody config (splice config g) e.1 e.2) ∈
      (buildRules config g).rules.entries := by
  rw [buildRules_eq, ← Table.get?_eq_some_iff]
  exact Draft.get?_rules_run_of_mem_converted h

/-- A keyword rule is that of a keyword in use. -/
theorem mem_keywords_buildRules {name word : String}
    (h : (name, word) ∈ (buildRules config g).keywords.entries) :
    ∃ m ∈ convertedMeanings config g, m.keyword = some (name, word) := by
  rw [buildRules_eq] at h
  rcases Draft.mem_keywords_run h with h | ⟨e, he, m, hm, hkeyword⟩
  · simp [Table.empty] at h
  · exact ⟨m, mem_convertedMeanings.2 ⟨e, he, hm⟩, hkeyword⟩

/-- The tokens of the productions that get rules get the rules they rely on. -/
theorem registers_buildRules {m : Meaning} (h : m ∈ convertedMeanings config g) :
    (buildRules config g).Registers m := by
  obtain ⟨e, he, hm⟩ := mem_convertedMeanings.1 h
  rw [buildRules_eq]
  exact Draft.registers_run he hm

theorem mem_takenNames_or_mem_keys {name : String} (h : name ∈ (buildRules config g).visited) :
    name ∈ takenNames config g ∨ name ∈ (buildRules config g).rules.keys := by
  rw [buildRules_eq] at h ⊢
  have hstart : Draft.Settled (takenNames config g)
      ⟨Table.empty, Table.empty, takenNames config g⟩ := fun _ h => .inl h
  exact Draft.settled_run hstart _ name h

/-- The names taken from the start are those that splicing takes out of the listing. -/
theorem not_mem_takenNames {name : String} {p : Production}
    (h : (splice config g).get? name = some p) : name ∉ takenNames config g := by
  intro htaken
  have hentry := Table.get?_eq_some_iff.1 h
  rw [splice, Table.mem_entries_filter, Option.isNone_iff_eq_none,
    List.lookup_eq_none_iff] at hentry
  obtain ⟨r, hr, rfl⟩ := List.mem_map.1 htaken
  have := hentry.2 r hr
  simp at this

theorem mem_takenNames {name : String} :
    name ∈ takenNames config g ↔ name ∈ config.suppressed.names ∧ name ∈ g.keys := by
  constructor
  · intro h
    obtain ⟨r, hr, rfl⟩ := List.mem_map.1 h
    obtain ⟨other, hsuppressed, hother⟩ := List.mem_filterMap.1 hr
    obtain ⟨p, hp, rfl⟩ := Option.map_eq_some_iff.1 hother
    exact ⟨hsuppressed, Table.mem_keys_of_mem_entries (Table.get?_eq_some_iff.1 hp)⟩
  · rintro ⟨hsuppressed, hkey⟩
    obtain ⟨p, hp⟩ := Table.mem_keys_iff.1 hkey
    refine List.mem_map.2 ⟨(name, p.choices.head?.getD []), List.mem_filterMap.2 ?_, rfl⟩
    exact ⟨name, hsuppressed, by rw [Table.get?_eq_some_iff.2 hp, Option.map_some]⟩

/-- Every production has a rule of its name. -/
theorem mem_keys_buildRules {name : String} {p : Production}
    (h : (splice config g).get? name = some p) : name ∈ (buildRules config g).rules.keys := by
  have hvisited : name ∈ (buildRules config g).visited := by
    rw [buildRules_eq]
    exact Draft.mem_visited_run (e := (name, p)) (Table.get?_eq_some_iff.1 h) _
  exact (mem_takenNames_or_mem_keys hvisited).resolve_left (not_mem_takenNames h)

/-- Where no helper is called like a production, all productions are converted. -/
theorem convertedProductions_eq
    (hfresh : ∀ m ∈ usedMeanings config (splice config g), ∀ name words,
      m.phrase = some (name, words) → name ∉ (splice config g).keys) :
    convertedProductions config g = (splice config g).entries := by
  refine Draft.converted_eq_self ?_ (splice config g).distinct ?_
  · intro e he
    exact not_mem_takenNames (Table.get?_eq_some_iff.2 he)
  · intro e he m hm name words hphrase
    exact hfresh m (mem_usedMeanings.2 ⟨e, he, hm⟩) name words hphrase

end CqlGlue.EditorGrammar
