import CqlGlue.Listing.Reader
import CqlGlue.Listing.WholeWord
import CqlGlue.Log.Event

/-!
# Inlining productions of a listing

Some productions exist only for the parser that prints the listing. Inlining drops their
definitions and puts their right-hand sides at every place where they are used as a whole
word. The words are substituted one after the other over the whole line, so a right-hand side
that mentions a later word is itself expanded, and one that mentions an earlier word is not.

## Main definitions
* `Inliner` holds the words to inline.
* `Inliner.run` inlines a listing.
-/

namespace CqlGlue.Listing

open Text

/-- Why a listing cannot be inlined. -/
inductive InlineError where
  /-- A line uses an inlined production that the listing does not define. -/
  | undefinedProduction (name : String)
  deriving DecidableEq, Repr

/-- The wording of a failure. -/
def InlineError.message : InlineError → String
  | undefinedProduction name =>
    "production '" ++ name ++ "' is referenced for inlining but has no definition"

/-- The productions inlined when no others are asked for. -/
def defaultWords : List String :=
  ["create_table_prefix_opt_temp", "cte_tables_macro_def", "elsedef", "endif", "expr_macro_def",
    "ifdef", "ifndef", "query_parts_macro_def", "select_core_macro_def",
    "select_expr_macro_def", "stmt_list_macro_def"]

/-- The words to inline, in order of substitution. -/
structure Inliner where
  words : List (List Char)

namespace Inliner

/-- Trims the words and drops those that are blank. -/
def ofWords (words : List String) : Inliner :=
  ⟨(words.map fun w => trim w.toList).filter (!·.isEmpty)⟩

/-- The inliner for `defaultWords`. -/
def standard : Inliner := ofWords defaultWords

/-- The trimmed lines of a listing. -/
def linesOf (text : List Char) : List (List Char) := (splitChar '\n' text).map trim

/-- A line cut at its first separator, both sides trimmed. -/
def splitLine (line : List Char) : Option (List Char × List Char) :=
  (splitFirst defines line).map fun p => (trim p.1, trim p.2)

/-- The right-hand side of the last line that defines the word. -/
def bodyOf? (lines : List (List Char)) (word : List Char) : Option (List Char) :=
  (lines.filterMap splitLine).reverse.lookup word

/-- Substitutes the words in order, reporting each substitution. The word that is used without
a definition ends the work. -/
def substitute (lines : List (List Char)) (rule : String) :
    List (List Char) → List Char → Logged (Except InlineError (List Char))
  | [], line => ⟨.ok line, []⟩
  | word :: words, line =>
    if hasWord word line then
      match bodyOf? lines word with
      | none => ⟨.error (.undefinedProduction (String.ofList word)), []⟩
      | some body =>
        let r := substitute lines rule words (replaceWord word body line)
        ⟨r.value, .inlining rule (String.ofList word) :: r.events⟩
    else substitute lines rule words line

/-- What becomes of one line: nothing when it defines no production or an inlined one, else
the line with its words substituted. A line whose right-hand side mentions none is kept as it
is, even where its left-hand side mentions one. -/
def inlineLine (inliner : Inliner) (lines : List (List Char)) (line : List Char) :
    Logged (Except InlineError (Option (List Char))) :=
  match splitLine line with
  | none => ⟨.ok none, []⟩
  | some (key, value) =>
    if inliner.words.contains key then ⟨.ok none, []⟩
    else if inliner.words.any (hasWord · value) then
      let r := substitute lines (String.ofList key) inliner.words line
      ⟨r.value.map some, r.events⟩
    else ⟨.ok (some line), []⟩

/-- Inlines the lines `rest` of a listing with lines `lines`; the first failure ends the work. -/
def inlineLines (inliner : Inliner) (lines : List (List Char)) :
    List (List Char) → Logged (Except InlineError (List (List Char)))
  | [] => ⟨.ok [], []⟩
  | line :: rest =>
    let first := inlineLine inliner lines line
    match first.value with
    | .error e => ⟨.error e, first.events⟩
    | .ok out =>
      let others := inlineLines inliner lines rest
      ⟨others.value.map (out.toList ++ ·), first.events ++ others.events⟩

/-- Inlines a listing. Every line of the result is a production with a line end. -/
def run (inliner : Inliner) (text : String) : Logged (Except InlineError String) :=
  let lines := linesOf text.toList
  let r := inlineLines inliner lines lines
  ⟨r.value.map fun out => String.ofList (out.flatMap (· ++ ['\n'])), r.events⟩

end Inliner

end CqlGlue.Listing
