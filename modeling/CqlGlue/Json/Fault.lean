import CqlGlue.Decimal.Shortest
import CqlGlue.Json.Value
import CqlGlue.Text.Quoted

/-!
# Faults in JSON texts

What can be wrong with a JSON text that is read with expectations about its shape, and where.
A place is a line and a column, lines from one; the column is the number of bytes of the line
up to and including the one that was looked at, or up to the point reached.

## Main definitions
* `Cause` lists what can be wrong, `Cause.message` words it.
* `Fault` is a cause with its place.
-/

namespace CqlGlue.Json

/-- A position in a text. -/
structure Place where
  line : Nat
  column : Nat
  deriving DecidableEq, Repr

/-- What was found in place of something else. -/
inductive Found where
  | null
  | bool (b : Bool)
  | number (n : Number)
  | text (s : String)
  | sequence
  | map

/-- What can be wrong. -/
inductive Cause where
  | endOfList
  | endOfObject
  | endOfString
  | endOfValue
  | expectedColon
  | expectedListCommaOrEnd
  | expectedObjectCommaOrEnd
  | expectedIdent
  | expectedValue
  | invalidEscape
  | invalidNumber
  | numberOutOfRange
  | controlCharacter
  | keyMustBeString
  | loneSurrogate
  | unexpectedEndOfEscape
  | trailingComma
  | trailingCharacters
  | nestingTooDeep
  /-- A value of another kind than hoped for. -/
  | wrongType (found : Found) (expected : String)
  /-- A record written as a list ends before its required fields do. -/
  | wrongLength (length : Nat) (expected : String)
  | missingField (name : String)
  | duplicateField (name : String)
  /-- A word that is none of the words allowed. -/
  | unknownWord (word : String) (allowed : List String)
  /-- A flag that is neither a truth value nor an integer. -/
  | notAFlag

/-- The text of a number in messages. -/
def Number.message : Number → String
  | natural n => "integer `" ++ toString n ++ "`"
  | negative i => "integer `" ++ toString i ++ "`"
  | float f => "floating point `" ++ Decimal.compactText f ++ "`"

/-- What a value is called in messages. -/
def Found.message : Found → String
  | null => "null"
  | bool b => "boolean `" ++ toString b ++ "`"
  | number n => n.message
  | text s => "string " ++ Text.quoted s
  | sequence => "sequence"
  | map => "map"

/-- The wording of a cause. -/
def Cause.message : Cause → String
  | endOfList => "EOF while parsing a list"
  | endOfObject => "EOF while parsing an object"
  | endOfString => "EOF while parsing a string"
  | endOfValue => "EOF while parsing a value"
  | expectedColon => "expected `:`"
  | expectedListCommaOrEnd => "expected `,` or `]`"
  | expectedObjectCommaOrEnd => "expected `,` or `\x7d`"
  | expectedIdent => "expected ident"
  | expectedValue => "expected value"
  | invalidEscape => "invalid escape"
  | invalidNumber => "invalid number"
  | numberOutOfRange => "number out of range"
  | controlCharacter =>
    "control character (\\u0000-\\u001F) found while parsing a string"
  | keyMustBeString => "key must be a string"
  | loneSurrogate => "lone leading surrogate in hex escape"
  | unexpectedEndOfEscape => "unexpected end of hex escape"
  | trailingComma => "trailing comma"
  | trailingCharacters => "trailing characters"
  | nestingTooDeep => "recursion limit exceeded"
  | wrongType found expected => "invalid type: " ++ found.message ++ ", expected " ++ expected
  | wrongLength length expected =>
    "invalid length " ++ toString length ++ ", expected " ++ expected
  | missingField name => "missing field `" ++ name ++ "`"
  | duplicateField name => "duplicate field `" ++ name ++ "`"
  | unknownWord word allowed =>
    "unknown variant `" ++ word ++ "`, expected one of " ++
      String.intercalate ", " (allowed.map fun a => "`" ++ a ++ "`")
  | notAFlag => "data did not match any variant of untagged enum Flag"

/-- A cause and its place. A fault of shape is found first and placed afterwards, when the
record or list around it has been left. -/
structure Fault where
  cause : Cause
  place? : Option Place

/-- The wording of a fault with its place. -/
def Fault.message (f : Fault) : String :=
  match f.place? with
  | none => f.cause.message
  | some p =>
    f.cause.message ++ " at line " ++ toString p.line ++ " column " ++ toString p.column

end CqlGlue.Json
