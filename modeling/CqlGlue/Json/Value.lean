/-!
# JSON values

Values of JSON as a schema holds them: integers of sixty-four bits, with or without sign, keep
their exact value, all other numbers are floating point. An object lists its members in
alphabetical order, each key once.

## Main definitions
* `Number` and `Value` are the types.
* `Value.member` adds a member to an object.
* `Value.asInteger?` reads an integer that has a sign bit to spare.
-/

namespace CqlGlue.Json

/-- A number. -/
inductive Number where
  /-- An integer from zero to `2 ^ 64 - 1`. -/
  | natural (n : Nat)
  /-- An integer below zero, not below `- 2 ^ 63`. -/
  | negative (i : Int)
  /-- Any other number, also a negative zero. -/
  | float (f : Float)

/-- A value. -/
inductive Value where
  | null
  | bool (b : Bool)
  | number (n : Number)
  | text (s : String)
  | array (items : List Value)
  | object (members : List (String × Value))

instance : Inhabited Value := ⟨.null⟩

namespace Value

/-- Puts a member in its alphabetical place; a key that is there gets the new value. -/
def member (key : String) (v : Value) : List (String × Value) → List (String × Value)
  | [] => [(key, v)]
  | m :: ms =>
    if key = m.1 then (key, v) :: ms
    else if key < m.1 then (key, v) :: m :: ms
    else m :: member key v ms

/-- The text, if the value is one. -/
def asText? : Value → Option String
  | text s => some s
  | _ => none

/-- The first number beyond the integers of sixty-four bits with sign. -/
def signedLimit : Nat := 0x8000000000000000

/-- The integer, if the value is one and fits into sixty-four bits with sign. -/
def asInteger? : Value → Option Int
  | number (.natural n) => if n < signedLimit then some n else none
  | number (.negative i) => some i
  | _ => none

end Value

end CqlGlue.Json
