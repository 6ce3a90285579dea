import CqlGlue.Toml.Token

/-!
# The outline of a document

The lines of a document with their keys and values, where brackets, braces, commas and line ends
have been sorted out and the keys and values without parts are still pieces of text. A key or a
value that is missing is an empty piece; what it lacks is told when it is read. Arrays and
tables between braces nest at most eighty deep.

## Main definitions
* `Piece` is the text of a key or of a value without parts.
* `Sketch` is a value made of pieces.
* `Statement` is a header or an entry.
* `outline` finds the statements of a text, or the first fault among its tokens.
-/

namespace CqlGlue.Toml

/-- The text of a key or of a value without parts, with its quotes. -/
structure Piece where
  quotation : Option Quotation
  text : List Char
  /-- The number of bytes before it. -/
  first : Nat
  deriving Repr

/-- Where a piece stands. -/
def Piece.span (p : Piece) : Span := ⟨p.first, p.first + Text.byteLength p.text⟩

/-- A value whose pieces are still to be read. -/
inductive Sketch where
  | piece (p : Piece)
  | array (span : Span) (items : List Sketch)
  /-- A table between braces: dotted keys with their values. -/
  | braces (span : Span) (entries : List (List Piece × Sketch))

/-- The end of a sketch. -/
def Sketch.stop : Sketch → Nat
  | piece p => p.span.stop
  | array s _ | braces s _ => s.stop

/-- A line with content, or several that belong together. -/
inductive Statement where
  /-- A header, for a table or for an element of an array of tables. -/
  | header (isElement : Bool) (span : Span) (keys : List Piece)
  | entry (keys : List Piece) (value : Sketch)

/-- The tokens still to be read. -/
structure Stream where
  tokens : List Token
  /-- The number of bytes of the document. -/
  stop : Nat
  /-- The end of the last token that is no blank, line end or comment. -/
  contentStop : Nat

/-- A reader takes tokens off the front or finds a fault. -/
abbrev Reader := StateT Stream (Except Fault)

namespace Reader

/-- Finds a fault. -/
def fail {α : Type} (cause : Cause) (span : Span) : Reader α := fun _ => .error ⟨cause, span⟩

/-- The next token, which stays. -/
def peek : Reader Token := fun s => .ok (s.tokens.headD (Token.finish s.stop), s)

/-- Passes over the next token. -/
def drop : Reader Unit := fun s => .ok ((), { s with tokens := s.tokens.drop 1 })

/-- Takes the next token if it is of a kind. -/
def take? (kind : TokenKind) : Reader (Option Token) := do
  let t ← peek
  if t.kind == kind then
    drop
    return some t
  else return none

/-- The empty stretch behind all that the document holds. -/
def afterContent : Reader Span := fun s => .ok (.at s.contentStop, s)

/-- Whether the token after the next is of a kind. -/
def secondIs (kind : TokenKind) : Reader Bool := fun s =>
  .ok ((s.tokens.drop 1).head?.any (·.kind == kind), s)

end Reader

open Reader

/-! ## Blanks, comments and line ends -/

/-- Whether a token is a blank, a line end or a comment. -/
def Token.isGap (t : Token) : Bool := [TokenKind.blank, .lineEnd, .comment].contains t.kind

/-- Controls, which stand neither in comments nor in strings. -/
def isControl (c : Char) : Bool := (c.toNat < 0x20 && c != '\t') || c.toNat == 0x7F

/-- Passes over blanks. -/
def spaces : Reader Unit := do
  let _ ← take? .blank

/-- Passes over a line end. -/
def lineEnd (t : Token) : Reader Unit := do
  drop
  if t.text == ['\r'] then fail .loneReturn t.span.after else pure ()

/-- Passes over a comment and the line end behind it. -/
def comment (t : Token) : Reader Unit := do
  drop
  let before := t.text.takeWhile (!isControl ·)
  if before.length < t.text.length then
    fail .commentCharacter (.at (t.first + Text.byteLength before))
  else
    let e ← peek
    if e.kind == .lineEnd then lineEnd e else pure ()

/-- Takes what may follow a value or a header on its line. -/
def restOfLine : Reader Unit := do
  spaces
  let t ← peek
  match t.kind with
  | .comment => comment t
  | .lineEnd => lineEnd t
  | .finish => pure ()
  | _ => fail .textAfterLine t.span.before

/-- Passes over the rest of a line that need not make sense. -/
def skipLine : Nat → Reader Unit
  | 0 => pure ()
  | fuel + 1 => do
    let t ← peek
    match t.kind with
    | .comment => comment t
    | .lineEnd => lineEnd t
    | .finish => pure ()
    | _ =>
      drop
      skipLine fuel

/-! ## Keys -/

/-- A piece in place of a missing key or value. -/
def missingPiece (t : Token) : Piece := ⟨none, [], t.first⟩

/-- A piece in place of a missing equals sign and value. It lacks its quotes. -/
def missingText (t : Token) : Piece := ⟨some .literal, [], t.first⟩

/-- A token as a piece. -/
def Token.piece (t : Token) : Piece :=
  match t.kind with
  | .quoted q => ⟨some q, t.text, t.first⟩
  | _ => ⟨none, t.text, t.first⟩

/-- A key after a dot or at the start of a header. A dot in its place stays. The second part
tells whether anything but punctuation was there. -/
def keyPiece : Reader (Piece × Bool) := do
  spaces
  let t ← peek
  match t.kind with
  | .quoted _ | .atom =>
    drop
    spaces
    return (t.piece, true)
  | _ => return (missingPiece t, false)

/-- Further keys, each behind a dot, and whether the last of them is there. -/
def dottedKeys : Nat → Bool → Reader (List Piece × Bool)
  | 0, there => return ([], there)
  | fuel + 1, there => do
    spaces
    match ← take? .dot with
    | none => return ([], there)
    | some _ =>
      let (key, there) ← keyPiece
      let (keys, there) ← dottedKeys fuel there
      return (key :: keys, there)

/-- A key with dots, and whether its last part is there. -/
def dottedKey (fuel : Nat) : Reader (List Piece × Bool) := do
  let (key, there) ← keyPiece
  let (keys, there) ← dottedKeys fuel there
  return (key :: keys, there)

/-! ## Values -/

/-- How deep values may nest. -/
def nestingLimit : Nat := 80

/-- The rest of a value without quotes: dots and atoms, and atoms behind a blank. -/
def plainRest : Nat → Reader (List Char)
  | 0 => return []
  | fuel + 1 => do
    let t ← peek
    match t.kind with
    | .dot | .atom =>
      drop
      return t.text ++ (← plainRest fuel)
    | .blank =>
      if ← secondIs .atom then
        drop
        return t.text ++ (← plainRest fuel)
      else return []
    | _ => return []

/-- Fails at a token that does not take an entry between braces further, where the entry has
come to a step. -/
def failEntry {α : Type} (step : EntryStep) (t : Token) : Reader α := do
  match t.kind, step with
  | .finish, _ => fail .bracesNotClosed (← afterContent)
  | .comma, _ => fail (.commaInBraces step) t.span
  | .equals, _ => fail (.equalsInBraces step) t.span.before
  | .closeBracket, _ => fail (.bracketInBraces step) t.span.before
  | .openBracket, .equals | .openBrace, .equals => fail .noEqualsInBraces t.span.before
  | .openBracket, _ | .openBrace, _ => fail (.noKeyInBraces step) t.span.before
  | _, .comma => fail .noCommaInBraces t.span.before
  | _, _ => fail .noEqualsInBraces t.span.before

/-- Passes over blanks, comments and line ends, and gives the next token. -/
def gaps : Nat → Reader Token
  | 0 => peek
  | fuel + 1 => do
    let t ← peek
    match t.kind with
    | .blank =>
      drop
      gaps fuel
    | .comment =>
      comment t
      gaps fuel
    | .lineEnd =>
      lineEnd t
      gaps fuel
    | _ => return t

mutual

/-- A value, `depth` levels of nesting left. -/
def value (depth : Nat) : Nat → Reader Sketch
  | 0 => return .piece (missingPiece (← peek))
  | fuel + 1 => do
    let t ← peek
    match t.kind with
    | .comment | .comma | .lineEnd | .finish | .blank => return .piece (missingPiece t)
    | .equals => fail .secondEquals t.span
    | .closeBrace => fail .bracesNotOpened t.span.before
    | .closeBracket => fail .arrayNotOpened t.span.before
    | .quoted _ =>
      drop
      return .piece t.piece
    | .dot | .atom =>
      let text ← plainRest (fuel + 1)
      return .piece ⟨none, text, t.first⟩
    | .openBracket =>
      drop
      match depth with
      | 0 => fail .tooDeep t.span
      | depth + 1 =>
        let (items, stop) ← arrayItems depth fuel false
        return .array ⟨t.first, stop⟩ items
    | .openBrace =>
      drop
      match depth with
      | 0 => fail .tooDeep t.span
      | depth + 1 =>
        let (entries, stop) ← bracedEntries depth fuel false
        return .braces ⟨t.first, stop⟩ entries

/-- The items of an array up to its closing bracket, and where that ends. With `full` there was
an item and a comma is due. -/
def arrayItems (depth : Nat) : Nat → Bool → Reader (List Sketch × Nat)
  | 0, _ => do fail .arrayNotClosed (← afterContent)
  | fuel + 1, full => do
    let t ← gaps fuel
    match t.kind, full with
    | .closeBracket, _ =>
      drop
      return ([], t.span.stop)
    | .comma, true =>
      drop
      arrayItems depth fuel false
    | .comma, false => fail .commaInArray t.span
    | .finish, _ => fail .arrayNotClosed (← afterContent)
    | .equals, _ => fail .equalsInArray t.span
    | _, true => fail .noCommaInArray t.span.before
    | _, false =>
      let item ← value depth fuel
      let (items, stop) ← arrayItems depth fuel true
      return (item :: items, stop)

/-- The entries of a table between braces up to the closing brace, and where that ends. With
`full` there was an entry and a comma is due. -/
def bracedEntries (depth : Nat) : Nat → Bool → Reader (List (List Piece × Sketch) × Nat)
  | 0, _ => do fail .bracesNotClosed (← afterContent)
  | fuel + 1, full => do
    let t ← gaps fuel
    match t.kind, full with
    | .closeBrace, _ =>
      drop
      return ([], t.span.stop)
    | .comma, true =>
      drop
      bracedEntries depth fuel false
    | .quoted _, false | .atom, false | .dot, false | .equals, false =>
      let (keys, _) ← dottedKey fuel
      let e ← gaps fuel
      let v ← match e.kind with
        | .equals =>
          drop
          bracedValue depth fuel
        | .closeBrace => pure (.piece (missingText e))
        | _ => failEntry .equals e
      let (entries, stop) ← bracedEntries depth fuel true
      return ((keys, v) :: entries, stop)
    | _, true => failEntry .comma t
    | _, false => failEntry .key t

/-- The value of an entry between braces. -/
def bracedValue (depth : Nat) : Nat → Reader Sketch
  | 0 => return .piece (missingPiece (← peek))
  | fuel + 1 => do
    let t ← gaps fuel
    match t.kind with
    | .finish | .comma | .equals => failEntry .value t
    | .closeBrace => return .piece (missingPiece t)
    | _ => value depth fuel

end

/-! ## Lines -/

/-- The brackets that end the header of an element. -/
def elementHeaderEnd (last : Nat) (there : Bool) : Reader (Option Token) := do
  match ← take? .closeBracket with
  | some t =>
    match ← take? .closeBracket with
    | some t => return some t
    | none => fail .elementHeaderHalfClosed t.span.after
  | none => if there then fail .elementHeaderNotClosed (.at last) else return none

/-- The bracket that ends the header of a table. -/
def tableHeaderEnd (last : Nat) (there : Bool) : Reader (Option Token) := do
  match ← take? .closeBracket with
  | some t => return some t
  | none => if there then fail .headerNotClosed (.at last) else return none

/-- A header line, whose first bracket is `t`. Where its key is missing the brackets at its end
may be missing too. -/
def header (fuel : Nat) (t : Token) : Reader Statement := do
  drop
  let isElement := (← take? .openBracket).isSome
  let (keys, there) ← dottedKey fuel
  let last := (keys.getLast?.map fun k => k.span.stop).getD t.span.stop
  match ← if isElement then elementHeaderEnd last there else tableHeaderEnd last there with
  | some e =>
    restOfLine
    return .header isElement ⟨t.first, e.span.stop⟩ keys
  | none =>
    skipLine fuel
    return .header isElement t.span keys

/-- A line with a key and a value. `t` is its first token. -/
def entry (fuel : Nat) (t : Token) : Reader Statement := do
  let (keys, _) ← dottedKey fuel
  let e ← peek
  if e.kind == .equals then
    drop
    spaces
    let v ← value nestingLimit fuel
    restOfLine
    return .entry keys v
  else fail (if t.kind == .dot then .dotWithoutEquals else .keyWithoutEquals) e.span.before

/-- The statements of a document. -/
def statements : Nat → Reader (List Statement)
  | 0 => return []
  | fuel + 1 => do
    let t ← gaps fuel
    match t.kind with
    | .finish => return []
    | .openBracket =>
      let s ← header fuel t
      return s :: (← statements fuel)
    | .closeBracket => fail .headerNotOpened t.span.before
    | .comma | .openBrace | .closeBrace => fail .entryWithoutKey t.span.before
    | _ =>
      let s ← entry fuel t
      return s :: (← statements fuel)

/-- The statements of a text. A byte order mark in front is passed over. Every step takes a
token or goes one level down, so the fuel never runs out. -/
def outline (text : String) : Except Fault (List Statement) :=
  let cs := text.toList
  let ts := match cs with
    | '\ufeff' :: rest => tokens 3 rest
    | _ => tokens 0 cs
  let content := ts.filter (!·.isGap)
  let contentStop := (content.getLast?.map fun t => t.span.stop).getD 0
  ((statements (4 * ts.length + 16)).run ⟨ts, Text.byteLength cs, contentStop⟩).map Prod.fst

end CqlGlue.Toml
