import CqlGlue.Json.Decoder

/-!
# Reading numbers

Numbers are read digit by digit. A number without fraction and exponent is an integer as long
as it fits into sixty-four bits. The significand of any other number is the digits that fit
into sixty-four bits; it is scaled by one power of ten, by division for a negative one, each of
the two steps rounding once.

## Main definitions
* `number` reads a number from its first digit on.
* `skipNumber` passes over a number of any size.
-/

namespace CqlGlue.Json.Decoder

/-- The largest significand. -/
def largest : Nat := 0xFFFFFFFFFFFFFFFF

/-- Takes digits as long as the significand fits, and counts them. -/
def significand : Nat → Nat → Nat → Decoder (Nat × Nat)
  | 0, n, count => return (n, count)
  | fuel + 1, n, count => do
    match ← peek? with
    | some c =>
      if c.isDigit && n * 10 + (c.toNat - 48) ≤ largest then
        drop
        significand fuel (n * 10 + (c.toNat - 48)) (count + 1)
      else return (n, count)
    | none => return (n, count)

/-- Whether a digit follows. -/
def digitAhead : Decoder Bool := return (← peek?).any Char.isDigit

/-- Divides by `10 ^ 308` as long as the exponent is out of reach. -/
def scaleDown : Nat → Float → Nat → Float
  | 0, f, _ => f
  | fuel + 1, f, e =>
    if e ≤ 308 then f / Float.ofScientific 1 false e
    else if f == 0.0 then f
    else scaleDown fuel (f / 1e308) (e - 308)

/-- The float with a significand and a decimal exponent. -/
def scaled (positive : Bool) (n : Nat) (exponent : Int) : Decoder Float := do
  let f := n.toUInt64.toFloat
  let r ←
    if exponent < 0 then
      let e := exponent.natAbs
      pure (scaleDown (e / 308 + 2) f e)
    else if exponent ≤ 308 then
      let r := f * Float.ofScientific 1 false exponent.toNat
      if r.isInf then failHere .numberOutOfRange else pure r
    else if f == 0.0 then pure f
    else failHere .numberOutOfRange
  return if positive then r else -r

/-- The first number beyond the exponents that are told apart. -/
def exponentLimit : Nat := 0x80000000

/-- The digits of an exponent. -/
def exponentDigits : Decoder (Option Nat) := do
  let ds ← takeWhile Char.isDigit
  let n := ds.foldl (fun n c => n * 10 + (c.toNat - 48)) 0
  return if n < exponentLimit then some n else none

/-- A number from its exponent mark on. -/
def withExponent (positive : Bool) (n : Nat) (start : Int) : Decoder Float := do
  drop
  let up ← match ← peek? with
    | some '+' => do
      drop
      pure true
    | some '-' => do
      drop
      pure false
    | _ => pure true
  match ← peek? with
  | none => failHere .endOfValue
  | some c =>
    if !c.isDigit then failAhead .invalidNumber
    else
      let before ← get
      match ← exponentDigits with
      | some e => scaled positive n (if up then start + e else start - e)
      | none =>
        if n != 0 && up then
          failAt .numberOutOfRange
            (overflowPlace before.place (before.rest.takeWhile Char.isDigit))
        else return if positive then 0.0 else -0.0
where
  /-- The place after the digit that makes the exponent too large. -/
  overflowPlace (start : Place) (digits : List Char) : Place :=
    let fits := (List.range digits.length).filter fun k =>
      (digits.take (k + 1)).foldl (fun n c => n * 10 + (c.toNat - 48)) 0 < exponentLimit
    ⟨start.line, start.column + fits.length + 1⟩

/-- Goes on after the digits of a fraction. -/
def afterFraction (positive : Bool) (n : Nat) (exponent : Int) : Decoder Float := do
  match ← peek? with
  | some 'e' | some 'E' => withExponent positive n exponent
  | _ => scaled positive n exponent

/-- A number from its decimal point on. Digits that no longer fit are dropped. -/
def withFraction (positive : Bool) (n : Nat) (start : Int) : Decoder Float := do
  drop
  let (m, count) ← fueled fun fuel => significand fuel n 0
  if ← digitAhead then
    let _ ← takeWhile Char.isDigit
    afterFraction positive m (start - count)
  else if count = 0 then
    match ← peek? with
    | some _ => failAhead .invalidNumber
    | none => failAhead .endOfValue
  else afterFraction positive m (start - count)

/-- A number whose digits no longer fit, from the first of the others on. -/
def longInteger (positive : Bool) (n : Nat) : Decoder Float := do
  let more ← takeWhile Char.isDigit
  match ← peek? with
  | some '.' => withFraction positive n more.length
  | some 'e' | some 'E' => withExponent positive n more.length
  | _ => scaled positive n more.length

/-- A number from its first digit on. -/
def number (positive : Bool) : Decoder Number := do
  match ← peek? with
  | none => failHere .endOfValue
  | some c =>
    if !c.isDigit then failAhead .invalidNumber
    else
      let n ←
        if c = '0' then do
          drop
          if ← digitAhead then failAhead .invalidNumber else pure 0
        else do
          let (n, _) ← fueled fun fuel => significand fuel 0 0
          pure n
      if ← digitAhead then return .float (← longInteger positive n)
      else
        match ← peek? with
        | some '.' => return .float (← withFraction positive n 0)
        | some 'e' | some 'E' => return .float (← withExponent positive n 0)
        | _ =>
          if positive then return .natural n
          else if n = 0 || n > Value.signedLimit then return .float (-n.toUInt64.toFloat)
          else return .negative (-n)

/-! ## Passing over a number -/

/-- Passes over an exponent from its mark on. -/
def skipExponent : Decoder Unit := do
  drop
  match ← peek? with
  | some '+' | some '-' => drop
  | _ => pure ()
  if ← digitAhead then
    let _ ← takeWhile Char.isDigit
  else failAhead .invalidNumber

/-- Passes over a fraction from its point on. -/
def skipFraction : Decoder Unit := do
  drop
  let ds ← takeWhile Char.isDigit
  if ds.isEmpty then failAhead .invalidNumber
  else
    match ← peek? with
    | some 'e' | some 'E' => skipExponent
    | _ => pure ()

/-- Passes over a number from its first digit on. -/
def skipNumber : Decoder Unit := do
  match ← peek? with
  | some '0' =>
    drop
    if ← digitAhead then failAhead .invalidNumber
  | some c =>
    if c.isDigit then
      let _ ← takeWhile Char.isDigit
    else failAhead .invalidNumber
  | none => failAhead .invalidNumber
  match ← peek? with
  | some '.' => skipFraction
  | some 'e' | some 'E' => skipExponent
  | _ => pure ()

end CqlGlue.Json.Decoder
