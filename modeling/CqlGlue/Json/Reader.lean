import CqlGlue.Json.Number
import CqlGlue.Text.Pieces

/-!
# Reading strings and values

Strings are read with all their escapes resolved; a pair of surrogates makes one character and
a lone one is a fault. A value is read whole, with a limit on its nesting, or passed over,
without any: passing over checks the form of a value and neither its surrogates nor the range
of its numbers.

## Main definitions
* `stringBody` reads a string from behind its opening quote on.
* `value` reads a value.
* `skipValue` passes over a value.
-/

namespace CqlGlue.Json.Decoder

/-! ## Strings -/

/-- The value of a hexadecimal digit. -/
def hexValue? (c : Char) : Option Nat :=
  if '0' ≤ c && c ≤ '9' then some (c.toNat - 48)
  else if 'a' ≤ c && c ≤ 'f' then some (c.toNat - 87)
  else if 'A' ≤ c && c ≤ 'F' then some (c.toNat - 55)
  else none

/-- The four hexadecimal digits of an escape. A fault lies behind the four bytes that should
have been the digits, or at the end of the text. -/
def fourHex : Decoder Nat := do
  let i ← get
  if Text.byteLength (i.rest.take 4) < 4 then
    failAt .endOfString (i.rest.foldl Place.after i.place)
  else
    match i.rest with
    | a :: b :: c :: d :: rest =>
      match hexValue? a, hexValue? b, hexValue? c, hexValue? d with
      | some x, some y, some z, some w =>
        set (⟨rest, ⟨i.place.line, i.place.column + 4⟩⟩ : Input)
        return ((x * 16 + y) * 16 + z) * 16 + w
      | _, _, _, _ => failAt .invalidEscape (i.place.afterBytes 4 i.rest)
    | _ => failAt .invalidEscape (i.place.afterBytes 4 i.rest)

/-- A part of a pair of escapes that has to be there. -/
def pairPart (c : Char) : Decoder Unit := do
  match ← peek? with
  | none => failHere .endOfString
  | some x => if x = c then drop else failAhead .unexpectedEndOfEscape

/-- The character of a numeric escape, from behind its letter on. -/
def numericEscape : Decoder Char := do
  let n ← fourHex
  if 0xDC00 ≤ n && n ≤ 0xDFFF then failHere .loneSurrogate
  else if n < 0xD800 || n > 0xDBFF then return Char.ofNat n
  else
    pairPart '\\'
    pairPart 'u'
    let m ← fourHex
    if m < 0xDC00 || m > 0xDFFF then failHere .loneSurrogate
    else return Char.ofNat ((n - 0xD800) * 0x400 + (m - 0xDC00) + 0x10000)

/-- The character of an escape with one letter. -/
def shortEscape? (c : Char) : Option Char :=
  match c with
  | '"' => some '"'
  | '\\' => some '\\'
  | '/' => some '/'
  | 'b' => some '\x08'
  | 'f' => some '\x0c'
  | 'n' => some '\n'
  | 'r' => some '\r'
  | 't' => some '\t'
  | _ => none

/-- Characters that a string holds only escaped. -/
def isControl (c : Char) : Bool := c.toNat < 0x20

/-- The characters of a string and its closing quote. -/
def stringChars : Nat → Decoder (List Char)
  | 0 => failHere .endOfString
  | fuel + 1 => do
    match ← peek? with
    | none => failHere .endOfString
    | some '"' =>
      drop
      return []
    | some '\\' =>
      drop
      match ← peek? with
      | none => failHere .endOfString
      | some 'u' =>
        drop
        let c ← numericEscape
        return c :: (← stringChars fuel)
      | some e =>
        match shortEscape? e with
        | some c =>
          drop
          return c :: (← stringChars fuel)
        | none => failAhead .invalidEscape
    | some c =>
      if isControl c then failAhead .controlCharacter
      else
        drop
        return c :: (← stringChars fuel)

/-- A string from behind its opening quote on. -/
def stringBody : Decoder String := return String.ofList (← fueled stringChars)

/-- Passes over the characters of a string and its closing quote. -/
def skipStringChars : Nat → Decoder Unit
  | 0 => failHere .endOfString
  | fuel + 1 => do
    match ← peek? with
    | none => failHere .endOfString
    | some '"' => drop
    | some '\\' =>
      drop
      match ← peek? with
      | none => failHere .endOfString
      | some 'u' =>
        drop
        let _ ← fourHex
        skipStringChars fuel
      | some e =>
        if (shortEscape? e).isSome then
          drop
          skipStringChars fuel
        else failAhead .invalidEscape
    | some c =>
      if isControl c then failHere .controlCharacter
      else
        drop
        skipStringChars fuel

/-- Passes over a string from behind its opening quote on. -/
def skipString : Decoder Unit := fueled skipStringChars

/-! ## Values -/

mutual

/-- A value, `depth` levels from the limit of nesting. -/
def valueWith : Nat → Nat → Decoder Value
  | 0, _ => failHere .endOfValue
  | fuel + 1, depth => do
    match ← peekToken? with
    | none => failAhead .endOfValue
    | some 'n' =>
      drop
      ident ['u', 'l', 'l']
      return .null
    | some 't' =>
      drop
      ident ['r', 'u', 'e']
      return .bool true
    | some 'f' =>
      drop
      ident ['a', 'l', 's', 'e']
      return .bool false
    | some '-' =>
      drop
      return .number (← number false)
    | some '"' =>
      drop
      return .text (← stringBody)
    | some '[' =>
      nested depth fun depth => do
        drop
        return .array (← bracketed (elementsWith fuel depth true) endList)
    | some '\x7b' =>
      nested depth fun depth => do
        drop
        return .object (← bracketed (membersWith fuel depth true []) endObject)
    | some c => if c.isDigit then return .number (← number true) else failAhead .expectedValue

/-- The elements of a list up to its bracket. -/
def elementsWith : Nat → Nat → Bool → Decoder (List Value)
  | 0, _, _ => failHere .endOfList
  | fuel + 1, depth, first => do
    if ← nextElement? first then
      let v ← valueWith fuel depth
      return v :: (← elementsWith fuel depth false)
    else return []

/-- The members of an object up to its brace, after those already read. -/
def membersWith : Nat → Nat → Bool → List (String × Value) → Decoder (List (String × Value))
  | 0, _, _, _ => failHere .endOfObject
  | fuel + 1, depth, first, members => do
    if ← nextMember? first then
      drop
      let key ← stringBody
      colon
      let v ← valueWith fuel depth
      membersWith fuel depth false (Value.member key v members)
    else return members

end

/-- A value, `depth` levels from the limit of nesting. -/
def value (depth : Nat) : Decoder Value := fueled fun fuel => valueWith fuel depth

/-! ## Passing over a value -/

/-- The two kinds of brackets. -/
inductive Frame where
  | list
  | object
  deriving DecidableEq

/-- The closing bracket. -/
def Frame.close : Frame → Char
  | list => ']'
  | object => '\x7d'

/-- The text ends inside. -/
def Frame.endOfText : Frame → Cause
  | list => .endOfList
  | object => .endOfObject

/-- Something else than a comma or the closing bracket follows. -/
def Frame.expectedCommaOrEnd : Frame → Cause
  | list => .expectedListCommaOrEnd
  | object => .expectedObjectCommaOrEnd

mutual

/-- Passes over a value inside the given brackets, innermost first, and over what follows it
up to the last closing bracket. -/
def skipValueWith : Nat → List Frame → Decoder Unit
  | 0, _ => failHere .endOfValue
  | fuel + 1, outer => do
    match ← peekToken? with
    | none => failAhead .endOfValue
    | some 'n' =>
      drop
      ident ['u', 'l', 'l']
      skipAfter fuel outer
    | some 't' =>
      drop
      ident ['r', 'u', 'e']
      skipAfter fuel outer
    | some 'f' =>
      drop
      ident ['a', 'l', 's', 'e']
      skipAfter fuel outer
    | some '-' =>
      drop
      skipNumber
      skipAfter fuel outer
    | some '"' =>
      drop
      skipString
      skipAfter fuel outer
    | some '[' =>
      drop
      skipFirst fuel .list outer
    | some '\x7b' =>
      drop
      skipFirst fuel .object outer
    | some c =>
      if c.isDigit then
        skipNumber
        skipAfter fuel outer
      else failAhead .expectedValue

/-- Goes on behind a complete value. -/
def skipAfter : Nat → List Frame → Decoder Unit
  | _, [] => pure ()
  | 0, _ => failHere .endOfValue
  | fuel + 1, frame :: outer => do
    match ← peekToken? with
    | none => failAhead frame.endOfText
    | some c =>
      if c = ',' then
        drop
        skipElement fuel frame outer
      else if c = frame.close then
        drop
        skipAfter fuel outer
      else failAhead frame.expectedCommaOrEnd

/-- Goes on behind an opening bracket. -/
def skipFirst : Nat → Frame → List Frame → Decoder Unit
  | 0, _, _ => failHere .endOfValue
  | fuel + 1, frame, outer => do
    match ← peekToken? with
    | none => failAhead frame.endOfText
    | some c =>
      if c = frame.close then
        drop
        skipAfter fuel outer
      else skipElement fuel frame outer

/-- Passes over an element of a list or a member of an object, and what follows. -/
def skipElement : Nat → Frame → List Frame → Decoder Unit
  | 0, _, _ => failHere .endOfValue
  | fuel + 1, .list, outer => skipValueWith fuel (.list :: outer)
  | fuel + 1, .object, outer => do
    match ← peekToken? with
    | some '"' => drop
    | some _ => failAhead .keyMustBeString
    | none => failAhead .endOfObject
    skipString
    match ← peekToken? with
    | some ':' => drop
    | some _ => failAhead .expectedColon
    | none => failAhead .endOfObject
    skipValueWith fuel (.object :: outer)

end

/-- Passes over a value of any depth. -/
def skipValue : Decoder Unit := fun i => skipValueWith (4 * i.rest.length + 8) [] i

end CqlGlue.Json.Decoder
