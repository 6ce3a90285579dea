import CqlGlue.Json.Fault

/-!
# Decoders

A decoder takes a value off the front of a JSON text or ends with a fault. The state survives a
fault, since the place of a fault of shape is where reading stands after the bracket around the
value has been looked for.

## Main definitions
* `Input` is the text still to be read and the place reached.
* `Decoder` is the type of decoders.
* `placed` gives a fault without a place the place reached.
* `bracketed` reads a closing bracket also after a fault.
-/

namespace CqlGlue.Json

/-- The text still to be read and the place of the last byte before it. -/
structure Input where
  rest : List Char
  place : Place

/-- The place after a character. -/
def Place.after (p : Place) (c : Char) : Place :=
  if c = '\n' then ⟨p.line + 1, 0⟩ else ⟨p.line, p.column + c.utf8Size⟩

/-- The place after the first byte of what follows; the same place at the end of the text. -/
def Place.afterByte (p : Place) : List Char → Place
  | [] => p
  | c :: _ => if c = '\n' then ⟨p.line + 1, 0⟩ else ⟨p.line, p.column + 1⟩

/-- The place after `n` bytes of a text. -/
def Place.afterBytes (p : Place) : Nat → List Char → Place
  | 0, _ => p
  | _, [] => p
  | n + 1, c :: cs =>
    if c.utf8Size ≤ n + 1 then (p.after c).afterBytes (n + 1 - c.utf8Size) cs
    else ⟨p.line, p.column + (n + 1)⟩
termination_by _ cs => cs.length

/-- A reader that takes a value off the front of a text. -/
abbrev Decoder := EStateM Fault Input

namespace Decoder

variable {α β : Type}

/-- Fails at a given place. -/
def failAt (cause : Cause) (place : Place) : Decoder α := throw ⟨cause, some place⟩

/-- Fails at the place reached. -/
def failHere (cause : Cause) : Decoder α := do failAt cause (← get).place

/-- Fails at the next byte. -/
def failAhead (cause : Cause) : Decoder α := do
  let i ← get
  failAt cause (i.place.afterByte i.rest)

/-- Fails for the shape of a value; the place is found later. -/
def failShape (cause : Cause) : Decoder α := throw ⟨cause, none⟩

/-- The next character, which stays. -/
def peek? : Decoder (Option Char) := return (← get).rest.head?

/-- Takes the next character, if there is one. -/
def next? : Decoder (Option Char) := do
  let i ← get
  match i.rest with
  | [] => return none
  | c :: rest =>
    set (⟨rest, i.place.after c⟩ : Input)
    return some c

/-- Takes the next character and drops it. -/
def drop : Decoder Unit := do
  let _ ← next?

/-- Takes characters of a class as long as there are any. -/
def takeWhile (p : Char → Bool) : Decoder (List Char) := do
  let i ← get
  let taken := i.rest.takeWhile p
  set (⟨i.rest.dropWhile p, taken.foldl Place.after i.place⟩ : Input)
  return taken

/-- The blanks of JSON. -/
def isJsonBlank (c : Char) : Bool := c == ' ' || c == '\n' || c == '\t' || c == '\r'

/-- Passes over blanks and looks at the next character. -/
def peekToken? : Decoder (Option Char) := do
  let _ ← takeWhile isJsonBlank
  peek?

/-- Gives a fault without a place the place reached. -/
def placed (d : Decoder α) : Decoder α := fun i =>
  match d i with
  | .ok a i => .ok a i
  | .error f i => .error { f with place? := f.place? <|> some i.place } i

/-- Reads a value and then what closes it. The closing part is read after a fault too, and a
fault of the value comes before one of the closing part. -/
def bracketed (body : Decoder α) (close : Decoder Unit) : Decoder α := fun i =>
  match body i with
  | .ok a i =>
    match close i with
    | .ok _ i => .ok a i
    | .error f i => .error f i
  | .error f i =>
    match close i with
    | .ok _ i => .error f i
    | .error _ i => .error f i

/-- Gives a decoder with fuel as much as the text is long. -/
def fueled (d : Nat → Decoder α) : Decoder α := fun i => d (2 * i.rest.length + 8) i

/-- Enters a list or an object, `depth` levels from the limit. -/
def nested (depth : Nat) (body : Nat → Decoder α) : Decoder α :=
  match depth with
  | d + 2 => body (d + 1)
  | _ => failAhead .nestingTooDeep

/-- Reads the letters after the first of a literal name. -/
def ident : List Char → Decoder Unit
  | [] => pure ()
  | c :: cs => do
    match ← peek? with
    | none => failHere .endOfValue
    | some x =>
      if x = c then
        drop
        ident cs
      else failAhead .expectedIdent

/-! ## Lists and objects -/

/-- What closes a list. -/
def endList : Decoder Unit := do
  match ← peekToken? with
  | some ']' => drop
  | some ',' =>
    drop
    match ← peekToken? with
    | some ']' => failAhead .trailingComma
    | _ => failAhead .trailingCharacters
  | some _ => failAhead .trailingCharacters
  | none => failAhead .endOfList

/-- What closes an object. -/
def endObject : Decoder Unit := do
  match ← peekToken? with
  | some '\x7d' => drop
  | some ',' => failAhead .trailingComma
  | some _ => failAhead .trailingCharacters
  | none => failAhead .endOfObject

/-- Whether another element follows; takes the comma in front of it. -/
def nextElement? (first : Bool) : Decoder Bool := do
  match ← peekToken? with
  | none => failAhead .endOfList
  | some ']' => return false
  | some c =>
    if first then return true
    else if c = ',' then
      drop
      match ← peekToken? with
      | some ']' => failAhead .trailingComma
      | some _ => return true
      | none => failAhead .endOfValue
    else failAhead .expectedListCommaOrEnd

/-- Whether another member follows; takes the comma in front of it. -/
def nextMember? (first : Bool) : Decoder Bool := do
  match ← peekToken? with
  | none => failAhead .endOfObject
  | some '\x7d' => return false
  | some c =>
    if first then
      if c = '"' then return true else failAhead .keyMustBeString
    else if c = ',' then
      drop
      match ← peekToken? with
      | some '"' => return true
      | some '\x7d' => failAhead .trailingComma
      | some _ => failAhead .keyMustBeString
      | none => failAhead .endOfValue
    else failAhead .expectedObjectCommaOrEnd

/-- The colon between a key and its value. -/
def colon : Decoder Unit := do
  match ← peekToken? with
  | some ':' => drop
  | some _ => failAhead .expectedColon
  | none => failAhead .endOfObject

end Decoder

end CqlGlue.Json
