import CqlGlue.Listing.Basic
import CqlGlue.Text.Blank
import CqlGlue.Text.Lowercase
import CqlGlue.Text.Pieces
import CqlGlue.EditorGrammar.Config

/-!
# From tokens to symbols

What one token of a listing becomes in a generated rule. A quoted keyword becomes a reference
to a rule of its own, which matches its letters in either case; a keyword of several words
becomes a reference to a helper rule that matches the words in sequence; punctuation and
operators stand for themselves; a bare name becomes a reference, optional where the production
may match nothing.

## Main definitions
* `Symbol` is one member of a generated sequence.
* `Meaning` is a symbol together with the rules it needs.
* `meaning` is what a token stands for.
-/

namespace CqlGlue.EditorGrammar

open Text Listing

/-- One member of a generated sequence. -/
inductive Symbol where
  /-- Quoted text that stands for itself. -/
  | literal (text : String)
  /-- A reference to a rule. -/
  | rule (name : String)
  /-- A reference to a rule that may match nothing. -/
  | optionalRule (name : String)
  /-- An expression of the configuration. -/
  | fixed (text : String)
  deriving DecidableEq, Repr

/-- The printed form of a symbol. -/
def Symbol.text : Symbol → String
  | literal t => t
  | rule name => "$." ++ name
  | optionalRule name => "optional($." ++ name ++ ")"
  | fixed t => t

/-- A symbol and the rules it relies on. -/
structure Meaning where
  symbol : Symbol
  /-- The helper rule of a keyword of several words: its name and the words. -/
  phrase : Option (String × List String)
  /-- The rule of a single keyword: its name and the keyword. -/
  keyword : Option (String × String)
  deriving DecidableEq, Repr

/-- Characters of words in keywords and bare names. -/
def isNameChar (c : Char) : Bool := isWordChar c || c == '-' || c == '@'

/-- Characters of operators: `*`, everything from `+` to `=` in the order of code points,
digits among it, `>` and `~`. -/
def isOperatorChar (c : Char) : Bool :=
  c == '*' || ('+' ≤ c && c ≤ '=') || c == '>' || c == '~'

/-- Whether a token begins with a non-empty text of the class between a pair of marks. -/
def startsEnclosed (mark : Char) (inside : Char → Bool) (cs : List Char) : Bool :=
  match cs with
  | c :: rest =>
    c == mark && !(rest.takeWhile inside).isEmpty && (rest.dropWhile inside).head? == some mark
  | [] => false

/-- A token in single quotes. -/
def isPunctuation (cs : List Char) : Bool := startsEnclosed '\'' (· != '\'') cs

/-- A token in double quotes. -/
def isQuoted (cs : List Char) : Bool := startsEnclosed '"' (· != '"') cs

/-- A token in double quotes made of operator characters. -/
def isOperator (cs : List Char) : Bool := startsEnclosed '"' isOperatorChar cs

/-- The text of a token without the double quotes around it. -/
def unquote (cs : List Char) : List Char :=
  ((cs.dropWhile (· == '"')).reverse.dropWhile (· == '"')).reverse

/-- The name of the rule for a keyword, in which `@` is spelled out. -/
def keywordName (word : List Char) : String := String.ofList (replaceChar '@' "AT_".toList word)

/-- A bare name as a reference. -/
def bareSymbol (config : Config) (g : Grammar) (name : String) : Symbol :=
  match config.referenceOverrides.get? name with
  | some text => .fixed text
  | none => if Grammar.isOptional g name then .optionalRule name else .rule name

/-- The meaning of a token that is one word or one mark, or of the name of a helper. -/
def reference (config : Config) (g : Grammar) (token : String) : Meaning :=
  match config.renames.get? token with
  | some target => ⟨.rule target, none, none⟩
  | none =>
    let cs := token.toList
    if isPunctuation cs || isOperator cs then ⟨.literal token, none, none⟩
    else if isQuoted cs then
      let word := unquote cs
      if !word.head?.any isNameChar then ⟨.literal token, none, none⟩
      else
        match config.renames.get? (String.ofList word) with
        | some target => ⟨.rule target, none, none⟩
        | none =>
          ⟨.rule (keywordName word), none, some (keywordName word, String.ofList word)⟩
    else ⟨bareSymbol config g token, none, none⟩

/-- The words of a keyword of several words. -/
def phraseWords (token : List Char) : List String :=
  (splitBlanks (unquote token)).map String.ofList

/-- The name of the helper rule for a keyword of several words. -/
def phraseName (words : List String) : String := String.intercalate "_" words

/-- The meaning of a token. One with a blank inside is a keyword of several words. -/
def meaning (config : Config) (g : Grammar) (token : String) : Meaning :=
  if token.toList.any isBlank then
    let words := phraseWords token.toList
    { reference config g (phraseName words) with phrase := some (phraseName words, words) }
  else reference config g token

/-- The meanings of a sequence. Tokens are trimmed and blank ones dropped. -/
def meanings (config : Config) (g : Grammar) (tokens : List String) : List Meaning :=
  ((tokens.map trimmed).filter (!·.isEmpty)).map (meaning config g)

end CqlGlue.EditorGrammar
