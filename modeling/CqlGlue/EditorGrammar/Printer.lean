import CqlGlue.EditorGrammar.BootRules
import CqlGlue.EditorGrammar.Build

/-!
# Printing a generated grammar

The generated file: a comment, the fixed frame of a grammar definition with its name and
conflicts, the hand-written rules, the rules of the draft that are not deleted, the keyword
rules, and the function that makes a keyword match in either case.

## Main definitions
* `generatedRules` is the part that depends on the listing, as names and bodies.
* `generate` is the whole file.
-/

namespace CqlGlue.EditorGrammar

open Listing

/-- The rule of a single keyword. -/
def keywordBody (word : String) : String := "$ => " ++ caseless word

/-- The generated definitions in order: rules that are not deleted, then keywords. -/
def generatedRules (config : Config) (d : Draft) : List (String × String) :=
  ((d.rules.filter fun name _ => !config.isDeleted name).map RuleBody.text).entries ++
    (d.keywords.map keywordBody).entries

/-- The names of the generated definitions in order. -/
theorem map_fst_generatedRules (config : Config) (d : Draft) :
    (generatedRules config d).map Prod.fst =
      d.rules.keys.filter (fun name => !config.isDeleted name) ++ d.keywords.keys := by
  rw [generatedRules, List.map_append]
  congr 1
  · change ((d.rules.filter fun name _ => !config.isDeleted name).map RuleBody.text).keys = _
    rw [Table.keys_map, Table.keys, Table.keys, Table.filter, List.filter_map]
    rfl
  · exact Table.keys_map keywordBody d.keywords

/-- A definition as it is printed. -/
def definitionText (rule : String × String) : String := rule.1 ++ ": " ++ rule.2

/-- The line of one group of conflicting rules. -/
def conflictLine (group : List String) : String :=
  "     [" ++ String.intercalate ", " (group.map ("$." ++ ·)) ++ "],\n"

/-- The function that turns a keyword into a pattern of both cases. -/
def caselessFunction : String :=
  "// make string case insensitive\n" ++
  "function CI (keyword) \x7b\n" ++
  "  return new RegExp(keyword\n" ++
  "     .split('')\n" ++
  "     .map(letter => `[$\x7bletter\x7d$\x7bletter.toUpperCase()\x7d]`)\n" ++
  "     .join('')\n" ++
  "  )\n" ++
  "\x7d\n"

/-- The generated file for a grammar. -/
def generate (config : Config) (g : Grammar) : String :=
  config.header ++ "\n\n\n" ++
  "const PREC = \x7b\n\x7d;\n\n" ++
  "module.exports = grammar(\x7b\n" ++
  "  name: '" ++ config.name ++ "',\n" ++
  "  extras: $ => [\n" ++
  "     /\\s|\\\\\\r?\\n/,\n" ++
  "     $.comment\n" ++
  "  ],\n" ++
  "  conflicts: $ => [\n" ++
  String.join (config.conflicts.map conflictLine) ++
  "  ],\n" ++
  "  word: $ => $.ID,\n" ++
  "  rules: \x7b" ++ bootText ++
  "    " ++ String.intercalate ",\n    "
    ((generatedRules config (build config g)).map definitionText) ++ "\n" ++
  "  \x7d\n\x7d);\n\n" ++
  caselessFunction ++ "\n"

end CqlGlue.EditorGrammar
