import CqlGlue.Toml.Digit
import CqlGlue.Toml.Outline

/-!
# Texts between quotes, and keys

What a quoted piece stands for. The first thing that is wrong with a piece is told with its
place: a quote that is missing at the end before all else, then the characters in their order.
Line ends in a long text stay as they are written; the one behind the opening quotes is dropped.

## Main definitions
* `quotedText` reads a piece between quotes.
* `keyOf` reads a key.
-/

namespace CqlGlue.Toml

/-- Reports a cause in a stretch of text. -/
def fault {α : Type} (cause : Cause) (span : Span) : Except Fault α := .error ⟨cause, span⟩

/-! ## Literal texts

In all that follows `n` is the number of bytes before the characters to be read. -/

/-- The characters of a text between single quotes. -/
def literalChars (n : Nat) : List Char → Except Fault (List Char)
  | [] => .ok []
  | c :: cs =>
    if isControl c then fault (.stringCharacter .literal) (.at n)
    else (literalChars (n + c.utf8Size) cs).map (c :: ·)

/-- The characters of a text between three single quotes each. -/
def longLiteralChars (n : Nat) : List Char → Except Fault (List Char)
  | [] => .ok []
  | '\r' :: '\n' :: cs => (longLiteralChars (n + 2) cs).map ('\r' :: '\n' :: ·)
  | c :: cs =>
    if c == '\r' then fault .loneReturn (.at (n + 1))
    else if isControl c && c != '\n' then fault (.stringCharacter .longLiteral) (.at n)
    else (longLiteralChars (n + c.utf8Size) cs).map (c :: ·)

/-! ## Escapes -/

/-- What stands for a character behind a backslash, where it is a single one. -/
def shortEscape? : Char → Option Char
  | 'b' => some '\x08'
  | 'e' => some '\x1b'
  | 'f' => some '\x0c'
  | 'n' => some '\n'
  | 'r' => some '\r'
  | 't' => some '\t'
  | '"' => some '"'
  | '\\' => some '\\'
  | _ => none

/-- The number of hexadecimal digits behind a letter. -/
def escapeDigits? : Char → Option Nat
  | 'x' => some 2
  | 'u' => some 4
  | 'U' => some 8
  | _ => none

/-- The character whose number has `count` hexadecimal digits. -/
def numbered (count n : Nat) (cs : List Char) : Except Fault Char :=
  let digits := (cs.take count).takeWhile (isDigitIn 16)
  let v := ofDigits 16 digits
  if digits.length < count then fault .fewEscapeDigits (.at (n + digits.length))
  else if v < 0xD800 || (0xE000 ≤ v && v < 0x110000) then .ok (Char.ofNat v)
  else fault .escapeNumber (.at n)

/-- What the characters behind a backslash stand for, and how many of them belong to it. -/
def escape (n : Nat) : List Char → Except Fault (Char × Nat)
  | [] => fault .unknownEscape (.at n)
  | c :: cs =>
    match shortEscape? c, escapeDigits? c with
    | some e, _ => .ok (e, 1)
    | none, some count => (numbered count (n + 1) cs).map fun e => (e, count + 1)
    | none, none => fault .unknownEscape (.at n)

/-- The characters of a text between double quotes. -/
def basicChars (n : Nat) : List Char → Except Fault (List Char)
  | [] => .ok []
  | c :: cs =>
    if c == '\\' then
      match escape (n + 1) cs with
      | .error f => .error f
      | .ok (e, taken) => (basicChars (n + 1 + taken) (cs.drop taken)).map (e :: ·)
    else if isControl c then
      fault (.stringCharacter .basic) ⟨n, n + ((c :: cs).takeWhile isControl).length⟩
    else (basicChars (n + c.utf8Size) cs).map (c :: ·)
  termination_by cs => cs.length
  decreasing_by all_goals simp only [List.length_drop, List.length_cons]; omega

/-- The number of blanks and line ends that a folded line end is followed by. -/
def gapLength (n : Nat) : List Char → Except Fault Nat
  | [] => .ok 0
  | '\r' :: '\n' :: cs => (gapLength (n + 2) cs).map (· + 2)
  | c :: cs =>
    if isSpace c || c == '\n' then (gapLength (n + 1) cs).map (· + 1)
    else if c == '\r' then fault .loneReturn (.at (n + 1))
    else .ok 0

/-- The number of characters that a backslash at the end of a line folds away. Blanks may stand
between the backslash and the line end. -/
def foldedLength (n : Nat) (cs : List Char) : Except Fault Nat :=
  let blanks := (cs.takeWhile isSpace).length
  match cs.drop blanks with
  | '\n' :: rest => (gapLength (n + blanks + 1) rest).map (· + (blanks + 1))
  | '\r' :: '\n' :: rest => (gapLength (n + blanks + 2) rest).map (· + (blanks + 2))
  | '\r' :: _ => fault .loneReturn (.at (n + blanks + 1))
  | _ => fault .noLineEndAfterBackslash (.at (n + blanks))

/-- The characters of a text between three double quotes each. -/
def longBasicChars (n : Nat) : List Char → Except Fault (List Char)
  | [] => .ok []
  | '\r' :: '\n' :: cs => (longBasicChars (n + 2) cs).map ('\r' :: '\n' :: ·)
  | c :: cs =>
    if c == '\\' then
      if cs.head?.any fun d => isSpace d || d == '\n' || d == '\r' then
        match foldedLength (n + 1) cs with
        | .error f => .error f
        | .ok folded => longBasicChars (n + 1 + folded) (cs.drop folded)
      else
        match escape (n + 1) cs with
        | .error f => .error f
        | .ok (e, taken) => (longBasicChars (n + 1 + taken) (cs.drop taken)).map (e :: ·)
    else if c == '\r' then fault .loneReturn (.at (n + 1))
    else if isControl c && c != '\n' then
      let bad := (c :: cs).takeWhile fun d => isControl d && d != '\n' && d != '\r'
      fault (.stringCharacter .longBasic) ⟨n, n + bad.length⟩
    else (longBasicChars (n + c.utf8Size) cs).map (c :: ·)
  termination_by cs => cs.length
  decreasing_by all_goals simp only [List.length_drop, List.length_cons]; omega

/-! ## Whole pieces -/

/-- The characters between the quotes of a kind. -/
def quotedChars (n : Nat) (cs : List Char) : Quotation → Except Fault (List Char)
  | .literal => literalChars n cs
  | .basic => basicChars n cs
  | .longLiteral => longLiteralChars n cs
  | .longBasic => longBasicChars n cs

/-- The length of the line end that opens a long text. -/
def openingLength : Quotation → List Char → Nat
  | .longLiteral, '\n' :: _ | .longBasic, '\n' :: _ => 1
  | .longLiteral, '\r' :: '\n' :: _ | .longBasic, '\r' :: '\n' :: _ => 2
  | _, _ => 0

/-- The text of a piece between quotes. -/
def quotedText (q : Quotation) (p : Piece) : Except Fault String :=
  let quotes := q.mark.length
  let opened := p.text.drop quotes
  let skipped := openingLength q opened
  let body := opened.drop skipped
  if q.mark.isSuffixOf body then
    (quotedChars (p.first + quotes + skipped) (body.take (body.length - quotes)) q).map
      String.ofList
  else fault (.quoteMissing q) p.span.after

/-- A key and where it stands. -/
structure Key where
  name : String
  span : Span
  deriving Repr

/-- Characters of keys without quotes. -/
def isKeyChar (c : Char) : Bool := c.isAlphanum || c == '_' || c == '-'

/-- A key out of its piece. -/
def keyOf (p : Piece) : Except Fault Key :=
  match p.quotation with
  | none =>
    if p.text.isEmpty then fault .emptyKey p.span
    else
      match p.text.dropWhile isKeyChar with
      | [] => .ok ⟨String.ofList p.text, p.span⟩
      | c :: _ =>
        let first := p.first + Text.byteLength (p.text.takeWhile isKeyChar)
        fault .keyCharacter ⟨first, first + c.utf8Size⟩
  | some .longLiteral => fault (.longKey .longLiteral) p.span
  | some .longBasic => fault (.longKey .longBasic) p.span
  | some q => (quotedText q p).map fun name => ⟨name, p.span⟩

end CqlGlue.Toml
