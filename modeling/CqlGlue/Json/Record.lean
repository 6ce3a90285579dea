import CqlGlue.Json.Reader

/-!
# Decoders for values of a known shape

Texts, words out of a list, flags, optional values, lists and records. A record is written as
an object, whose unknown members are passed over, or as a list of its fields in order. Only the
fields in front may be required.

## Main definitions
* `text`, `word`, `flag`, `nullable`, `list` decode values that are no records.
* `record` decodes a record field by field.
* `decode` runs a decoder on a whole text.
-/

namespace CqlGlue.Json.Decoder

variable {α δ : Type}

/-- Fails because the next value is of another kind. Scalars are taken, so that the fault lies
behind them; brackets are not. -/
def wrongKind (expected : String) : Decoder α := placed do
  match ← peek? with
  | some 'n' =>
    drop
    ident ['u', 'l', 'l']
    failShape (.wrongType .null expected)
  | some 't' =>
    drop
    ident ['r', 'u', 'e']
    failShape (.wrongType (.bool true) expected)
  | some 'f' =>
    drop
    ident ['a', 'l', 's', 'e']
    failShape (.wrongType (.bool false) expected)
  | some '-' =>
    drop
    let n ← number false
    failShape (.wrongType (.number n) expected)
  | some '"' =>
    drop
    let s ← stringBody
    failShape (.wrongType (.text s) expected)
  | some '[' => failShape (.wrongType .sequence expected)
  | some '\x7b' => failShape (.wrongType .map expected)
  | some c =>
    if c.isDigit then
      let n ← number true
      failShape (.wrongType (.number n) expected)
    else failAhead .expectedValue
  | none => failAhead .expectedValue

/-- A string, called `expected` in messages. -/
def textAs (expected : String) : Decoder String := do
  match ← peekToken? with
  | none => failAhead .endOfValue
  | some '"' =>
    drop
    stringBody
  | some _ => wrongKind expected

/-- A string. -/
def text : Decoder String := textAs "a string"

/-- The value `null`. -/
def unit : Decoder Unit := do
  match ← peekToken? with
  | none => failAhead .endOfValue
  | some 'n' =>
    drop
    ident ['u', 'l', 'l']
  | some _ => wrongKind "unit"

/-- A word out of a list. -/
def wordOf (words : List (String × α)) : Decoder α := placed do
  let w ← textAs "variant identifier"
  match words.lookup w with
  | some a => return a
  | none => failShape (.unknownWord w (words.map Prod.fst))

/-- Requires that a key comes next. That the object is empty is told by what reads the key. -/
def keyAhead : Decoder Unit := do
  match ← peekToken? with
  | some '"' | some '\x7d' => pure ()
  | some _ => failAhead .keyMustBeString
  | none => failAhead .endOfObject

/-- A word out of a list, as a string or as an object that maps it to `null`. -/
def word (words : List (String × α)) (depth : Nat) : Decoder α := do
  match ← peekToken? with
  | some '\x7b' =>
    let a ← nested depth fun _ => do
      drop
      keyAhead
      let a ← wordOf words
      colon
      unit
      return a
    match ← peekToken? with
    | some '\x7d' =>
      drop
      return a
    | some _ => failHere .expectedValue
    | none => failHere .endOfObject
  | some '"' => wordOf words
  | some _ => failAhead .expectedValue
  | none => failAhead .endOfValue

/-- A flag: a truth value, or an integer that is zero or not. -/
def flag (depth : Nat) : Decoder Bool := do
  match ← value depth with
  | .bool b => return b
  | v =>
    match v.asInteger? with
    | some i => return i != 0
    | none => failShape .notAFlag

/-- A value or `null`. -/
def nullable (d : Decoder α) : Decoder (Option α) := do
  match ← peekToken? with
  | some 'n' =>
    drop
    ident ['u', 'l', 'l']
    return none
  | _ => return some (← d)

/-- The elements of a list up to its bracket. -/
def elements (d : Decoder α) : Nat → Bool → Decoder (List α)
  | 0, _ => failHere .endOfList
  | fuel + 1, first => do
    if ← nextElement? first then
      let a ← d
      return a :: (← elements d fuel false)
    else return []

/-- A list. -/
def list (item : Nat → Decoder α) (depth : Nat) : Decoder (List α) := do
  match ← peekToken? with
  | none => failAhead .endOfValue
  | some '[' =>
    placed <| nested depth fun depth => do
      drop
      bracketed (fueled fun fuel => elements (item depth) fuel true) endList
  | some _ => wrongKind "a sequence"

/-! ## Records -/

/-- A field of a record that is collected in a draft. -/
structure Field (δ : Type) where
  name : String
  /-- Whether the draft has the field already. -/
  isSet : δ → Bool
  /-- Reads the field, given the depth and the draft. -/
  read : Nat → δ → Decoder δ

/-- A record: its name in messages, its fields in order, and how a draft becomes the record.
The completion is told which cause a missing field is. -/
structure Shape (δ α : Type) where
  name : String
  fields : List (Field δ)
  start : δ
  complete : (String → Cause) → δ → Except Cause α

namespace Shape

/-- The name of a record with the number of its fields. -/
def lengthMessage (s : Shape δ α) : String :=
  "struct " ++ s.name ++ " with " ++ toString s.fields.length ++ " elements"

/-- The cause of a missing field of a record written as a list. -/
def wrongLength (s : Shape δ α) (name : String) : Cause :=
  .wrongLength ((s.fields.map Field.name).idxOf name) s.lengthMessage

end Shape

/-- The members of a record up to its brace. -/
def members (s : Shape δ α) (depth : Nat) : Nat → Bool → δ → Decoder δ
  | 0, _, _ => failHere .endOfObject
  | fuel + 1, first, d => do
    if ← nextMember? first then
      drop
      let key ← stringBody
      match s.fields.find? (·.name == key) with
      | some field =>
        if field.isSet d then failShape (.duplicateField key)
        else
          colon
          members s depth fuel false (← field.read depth d)
      | none =>
        colon
        skipValue
        members s depth fuel false d
    else return d

/-- The fields of a record written as a list, up to its bracket or the last field. -/
def listed (depth : Nat) : List (Field δ) → Bool → δ → Decoder δ
  | [], _, d => return d
  | field :: fields, first, d => do
    if ← nextElement? first then listed depth fields false (← field.read depth d)
    else return d

/-- Makes a record of a draft. -/
def completed (s : Shape δ α) (missing : String → Cause) (d : δ) : Decoder α :=
  match s.complete missing d with
  | .ok a => return a
  | .error c => failShape c

/-- A record. -/
def record (s : Shape δ α) (depth : Nat) : Decoder α := do
  match ← peekToken? with
  | none => failAhead .endOfValue
  | some '[' =>
    placed <| nested depth fun depth => do
      drop
      bracketed
        (do completed s s.wrongLength (← listed depth s.fields true s.start))
        endList
  | some '\x7b' =>
    placed <| nested depth fun depth => do
      drop
      bracketed
        (do completed s .missingField (← fueled fun fuel => members s depth fuel true s.start))
        endObject
  | some _ => wrongKind ("struct " ++ s.name)

/-- How deep the lists, objects and records of a value may nest. -/
def nestingLimit : Nat := 128

/-- Decodes a whole text. -/
def decode (d : Nat → Decoder α) (s : String) : Except Fault α :=
  let whole : Decoder α := do
    let a ← d nestingLimit
    match ← peekToken? with
    | none => return a
    | some _ => failAhead .trailingCharacters
  match whole ⟨s.toList, ⟨1, 0⟩⟩ with
  | .ok a _ => .ok a
  | .error f _ => .error f

end CqlGlue.Json.Decoder
