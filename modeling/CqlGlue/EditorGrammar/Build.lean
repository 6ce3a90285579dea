import CqlGlue.Log.Event
import CqlGlue.EditorGrammar.Symbol

/-!
# Building the generated rules

A draft collects rules while the productions of a listing are visited in order. Visiting a
production first defines the helpers and keywords that its alternatives use for the first
time, then the rule itself. Productions to suppress are spliced into their users beforehand
and not visited.

## Main definitions
* `RuleBody` is the right-hand side of a generated rule.
* `splice` replaces references to suppressed productions by their first alternatives.
* `Draft` holds the rules so far; `Draft.visit` adds a production.
* `build` is the draft of a whole grammar.
-/

namespace CqlGlue.EditorGrammar

open Text Listing

/-- The right-hand side of a generated rule. -/
inductive RuleBody where
  /-- Alternatives of a production, perhaps printed one on a line, perhaps wrapped. -/
  | choices (alternatives : List (List Symbol)) (lineBreaks : Bool) (wrapper : Option String)
  /-- The words of a keyword in sequence. -/
  | phrase (words : List String)
  /-- A definition of the configuration. -/
  | verbatim (text : String)
  deriving DecidableEq, Repr

/-- A reference to a case-insensitive word. -/
def caseless (word : String) : String := "CI('" ++ lowercase word ++ "')"

/-- An alternative: a lone symbol stands by itself. -/
def alternativeText : List Symbol → String
  | [s] => s.text
  | symbols => "seq(" ++ String.intercalate ", " (symbols.map Symbol.text) ++ ")"

/-- Alternatives: a lone one stands by itself. -/
def choiceText (alternatives : List (List Symbol)) (lineBreaks : Bool) : String :=
  match alternatives with
  | [a] => alternativeText a
  | _ =>
    "choice(" ++
      String.intercalate (if lineBreaks then ",\n      " else ", ")
        (alternatives.map alternativeText) ++ ")"

/-- Puts a body into a wrapper. -/
def wrap (wrapper : Option String) (body : String) : String :=
  match wrapper with
  | none => body
  | some w => String.ofList (replaceFirst ['\x7b', '\x7d'] body.toList w.toList)

/-- The printed form of a right-hand side. -/
def RuleBody.text : RuleBody → String
  | choices alternatives lineBreaks wrapper =>
    "$ => " ++ wrap wrapper (choiceText alternatives lineBreaks)
  | phrase words =>
    "$ => prec.left(1, seq(" ++ String.intercalate ", " (words.map caseless) ++ "))"
  | verbatim text => text

/-! ## Splicing -/

/-- What references to suppressed productions are replaced by. A production without
alternatives is replaced by nothing. -/
def replacements (config : Config) (g : Grammar) : List (String × List String) :=
  config.suppressed.names.filterMap fun name =>
    (g.get? name).map fun p => (name, p.choices.head?.getD [])

/-- Replaces the references in one sequence of tokens; what comes in is not replaced again. -/
def spliceTokens (replacements : List (String × List String)) (tokens : List String) :
    List String :=
  tokens.flatMap fun token => (replacements.lookup token).getD [token]

/-- Replaces the references in a production. -/
def spliceProduction (replacements : List (String × List String)) (p : Production) :
    Production :=
  { p with choices := p.choices.map (spliceTokens replacements) }

/-- Splices the suppressed productions into their users and takes them out. -/
def splice (config : Config) (g : Grammar) : Grammar :=
  let rs := replacements config g
  (g.map (spliceProduction rs)).filter fun name _ => (rs.lookup name).isNone

/-! ## Drafts -/

/-- The rules built so far. -/
structure Draft where
  /-- Productions and helpers. -/
  rules : Table RuleBody
  /-- Keywords under the names of their rules. -/
  keywords : Table String
  /-- Names that are not to be defined again. -/
  visited : List String

namespace Draft

/-- Defines the helper and the keyword of a meaning where they are new. -/
def register (d : Draft) (m : Meaning) : Draft :=
  let d :=
    match m.phrase with
    | some (name, words) =>
      if d.visited.contains name then d
      else { d with rules := d.rules.insert name (.phrase words), visited := name :: d.visited }
    | none => d
  match m.keyword with
  | some (name, word) => { d with keywords := d.keywords.insertNew name word }
  | none => d

/-- Adds a production, unless its name is taken. -/
def visit (config : Config) (g : Grammar) (d : Draft) (name : String) (p : Production) : Draft :=
  if d.visited.contains name then d
  else
    let parts := p.choices.map (meanings config g)
    let alternatives := (parts.map (·.map Meaning.symbol)).filter (!·.isEmpty)
    let d := parts.flatten.foldl register { d with visited := name :: d.visited }
    let body := .choices alternatives (config.lineBreakRules.contains name)
      (config.precedence.get? name)
    { d with rules := d.rules.insert name body }

/-- Puts the definitions of the configuration in place of the rules they name. -/
def override (config : Config) (d : Draft) : Draft :=
  { d with
    rules := config.ruleOverrides.entries.foldl
      (fun rules o => if rules.contains o.1 then rules.insert o.1 (.verbatim o.2) else rules)
      d.rules }

end Draft

/-- The draft of a grammar before definitions of the configuration are put in. -/
def buildRules (config : Config) (g : Grammar) : Draft :=
  let taken := (replacements config g).map Prod.fst
  let g := splice config g
  g.entries.foldl (fun d e => d.visit config g e.1 e.2) ⟨Table.empty, Table.empty, taken⟩

/-- The draft of a grammar. -/
def build (config : Config) (g : Grammar) : Draft := (buildRules config g).override config

/-- What is reported while a grammar is generated: suppressed productions that are missing,
then the rules replaced. -/
def events (config : Config) (g : Grammar) : List Event :=
  ((config.suppressed.names.filter fun name => !g.contains name).map .suppressedUndefined) ++
    ((config.ruleOverrides.keys.filter (buildRules config g).rules.contains).map .replacingRule)

end CqlGlue.EditorGrammar
