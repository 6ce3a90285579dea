import CqlGlue.Text.Pieces
import CqlGlue.Toml.Fault

/-!
# Tokens

A text cut into marks, blanks, line ends, comments, quoted texts and atoms, which are all else.
Every text can be cut: a quoted text that is not closed runs to the end of its line, or to the
end of the document when it may hold line ends.

## Main definitions
* `Token` is a piece of a text with its kind and its place.
* `tokens` cuts a text.
-/

namespace CqlGlue.Toml

/-- The kinds of tokens. -/
inductive TokenKind where
  | dot
  | equals
  | comma
  | openBracket
  | closeBracket
  | openBrace
  | closeBrace
  /-- Blanks and tabs. -/
  | blank
  | lineEnd
  | comment
  | quoted (quotation : Quotation)
  /-- Keys and values without quotes, or parts of them. -/
  | atom
  /-- The end of the document. -/
  | finish
  deriving DecidableEq, Repr

/-- A piece of a text. -/
structure Token where
  kind : TokenKind
  text : List Char
  /-- The number of bytes before it. -/
  first : Nat
  deriving Repr

/-- Where a token stands. -/
def Token.span (t : Token) : Span := ⟨t.first, t.first + Text.byteLength t.text⟩

/-- The token at the end of a document. -/
def Token.finish (first : Nat) : Token := ⟨.finish, [], first⟩

/-- Blanks within a line. -/
def isSpace (c : Char) : Bool := c == ' ' || c == '\t'

/-- Characters of atoms. Quotes are among them, in case an opening quote was forgotten. -/
def isAtomChar (c : Char) : Bool := !".=,[]\x7b\x7d \t#\r\n".toList.contains c

/-! ## Quoted texts

How many characters belong to a quoted text after the quotes that open it. -/

/-- The rest of a text between single quotes. -/
def literalLength : List Char → Nat
  | [] => 0
  | c :: cs => if c == '\'' then 1 else if c == '\n' then 0 else literalLength cs + 1

/-- The rest of a text between double quotes. -/
def basicLength : List Char → Nat
  | [] => 0
  | '\\' :: '\\' :: cs => basicLength cs + 2
  | '\\' :: '"' :: cs => basicLength cs + 2
  | c :: cs => if c == '"' then 1 else if c == '\n' then 0 else basicLength cs + 1

/-- The number of quotes at a place, up to the five that can end a long text. -/
def closingLength (quote : Char) (cs : List Char) : Nat :=
  (cs.takeWhile (· == quote)).length.min 5

/-- The rest of a text between three single quotes each. -/
def longLiteralLength : List Char → Nat
  | [] => 0
  | c :: cs =>
    if 3 ≤ closingLength '\'' (c :: cs) then closingLength '\'' (c :: cs)
    else longLiteralLength cs + 1

/-- The rest of a text between three double quotes each. -/
def longBasicLength : List Char → Nat
  | [] => 0
  | '\\' :: '\\' :: cs => longBasicLength cs + 2
  | '\\' :: '"' :: cs => longBasicLength cs + 2
  | c :: cs =>
    if 3 ≤ closingLength '"' (c :: cs) then closingLength '"' (c :: cs)
    else longBasicLength cs + 1

/-! ## Cutting -/

/-- The kind of the token that begins with `c`, and how many of the characters after `c` belong
to it. -/
def tokenShape (c : Char) (cs : List Char) : TokenKind × Nat :=
  match c with
  | '.' => (.dot, 0)
  | '=' => (.equals, 0)
  | ',' => (.comma, 0)
  | '[' => (.openBracket, 0)
  | ']' => (.closeBracket, 0)
  | '\x7b' => (.openBrace, 0)
  | '\x7d' => (.closeBrace, 0)
  | '\n' => (.lineEnd, 0)
  | '\r' => (.lineEnd, if cs.head? == some '\n' then 1 else 0)
  | '#' => (.comment, (cs.takeWhile fun c => c != '\r' && c != '\n').length)
  | '\'' =>
    if ['\'', '\''].isPrefixOf cs then (.quoted .longLiteral, longLiteralLength (cs.drop 2) + 2)
    else (.quoted .literal, literalLength cs)
  | '"' =>
    if ['"', '"'].isPrefixOf cs then (.quoted .longBasic, longBasicLength (cs.drop 2) + 2)
    else (.quoted .basic, basicLength cs)
  | c =>
    if isSpace c then (.blank, (cs.takeWhile isSpace).length)
    else (.atom, (cs.takeWhile isAtomChar).length)

/-- The tokens of a text that has `first` bytes before it. -/
def tokens (first : Nat) : List Char → List Token
  | [] => []
  | c :: cs =>
    let shape := tokenShape c cs
    let text := c :: cs.take shape.2
    ⟨shape.1, text, first⟩ :: tokens (first + Text.byteLength text) (cs.drop shape.2)
  termination_by cs => cs.length
  decreasing_by simp only [List.length_drop, List.length_cons]; omega

/-- The texts of the tokens make up the text that was cut. -/
theorem flatMap_text_tokens (first : Nat) (cs : List Char) :
    (tokens first cs).flatMap Token.text = cs := by
  fun_induction tokens first cs with
  | case1 => rfl
  | case2 first c cs shape text ih => simp [text, ih]

end CqlGlue.Toml
