/-!
# Shortest decimal text

The fewest decimal digits that read back as a given binary floating point number, and two ways
of writing them down. A finite number is a mantissa times a power of two; the reals that round
to it form an interval around it, closed when the mantissa is even. The digits are the shortest
ones in that interval, and of two candidates of equal length the nearer. Where the number lies
in the middle between them a rule of the format decides.

## Main definitions
* `Binary` is a finite number as mantissa and exponent.
* `Tie` says which candidate is taken in the middle.
* `Binary.shortest` finds the digits.
* `positionalText` writes a number without an exponent, `compactText` with one where the
  number is very large or very small.
-/

namespace CqlGlue.Decimal

/-- The number `mantissa * 2 ^ exponent`, with the spacing of the numbers below it. -/
structure Binary where
  mantissa : Nat
  exponent : Int
  /-- Whether the next number below is only half as far away as the next above. -/
  closeBelow : Bool

/-- The digits `digits` of a decimal number, the last of them in the place `10 ^ exponent`. -/
structure Digits where
  digits : Nat
  exponent : Int
  deriving Repr

/-- Which of two candidates is taken for a number in the middle between them. -/
inductive Tie where
  /-- The one whose last digit is even. -/
  | toEven
  /-- The one of greater magnitude. -/
  | away
  deriving DecidableEq, Repr

/-- Whether the lower candidate is taken. -/
def Tie.takesLower (tie : Tie) (lower : Nat) : Bool :=
  match tie with
  | toEven => lower % 2 == 0
  | away => false

/-- The magnitude of a finite number, from its eleven bits of exponent and its fifty-two bits of
fraction. -/
def Binary.ofFloat (f : Float) : Binary :=
  let bits : Nat := f.toBits.toNat
  let e : Nat := bits / 0x10000000000000 % 0x800
  let frac : Nat := bits % 0x10000000000000
  if e = 0 then ⟨frac, -1074, false⟩
  else ⟨frac + 0x10000000000000, (e : Int) - 1075, frac == 0 && e > 1⟩

namespace Binary

/-- The numerator and the denominator. -/
def ratio (b : Binary) : Nat × Nat :=
  if b.exponent < 0 then (b.mantissa, Nat.pow 2 (-b.exponent).toNat)
  else (b.mantissa * Nat.pow 2 b.exponent.toNat, 1)

/-- Whether `d * 10 ^ g` rounds to the number. -/
def admits (b : Binary) (d : Nat) (g : Int) : Bool :=
  let (num, den) := b.ratio
  let scale := num / b.mantissa
  let low := 4 * num - (if b.closeBelow then scale else 2 * scale)
  let high := 4 * num + 2 * scale
  let x := 4 * d * den * Nat.pow 10 g.toNat
  let low := low * Nat.pow 10 (-g).toNat
  let high := high * Nat.pow 10 (-g).toNat
  if b.mantissa % 2 = 0 then low ≤ x && x ≤ high else low < x && x < high

/-- How many decimal places a number below one has before its first digit that is not zero. -/
def leadingZeros (den : Nat) : Nat → Nat → Nat
  | 0, _ => 0
  | fuel + 1, num => if den ≤ num * 10 then 0 else leadingZeros den fuel (num * 10) + 1

/-- The decimal exponent of the first digit. -/
def firstPlace (b : Binary) : Int :=
  let (num, den) := b.ratio
  if den ≤ num then ((Nat.toDigits 10 (num / den)).length : Int) - 1
  else -1 - (leadingZeros den 400 num : Int)

/-- Digits without a zero in the last place, where the number of digits grew by a carry. -/
def carry (n : Nat) (d : Digits) : Digits :=
  if d.digits = Nat.pow 10 n then ⟨Nat.pow 10 (n - 1), d.exponent + 1⟩ else d

/-- The candidate with `n` digits, if one of the two neighbours on that grid is admitted. -/
def withDigits? (tie : Tie) (b : Binary) (n : Nat) : Option Digits :=
  let g := b.firstPlace + 1 - (n : Int)
  let (num, den) := b.ratio
  let num := num * Nat.pow 10 (-g).toNat
  let den := den * Nat.pow 10 g.toNat
  let down := num / den
  let up := down + 1
  match b.admits down g, b.admits up g with
  | true, true =>
    if 2 * (num % den) < den || (2 * (num % den) = den && tie.takesLower down) then
      some ⟨down, g⟩
    else some (carry n ⟨up, g⟩)
  | true, false => some ⟨down, g⟩
  | false, true => some (carry n ⟨up, g⟩)
  | false, false => none

/-- The shortest digits that read back as the number. Seventeen always do. -/
def shortest (tie : Tie) (b : Binary) : Digits :=
  if b.mantissa = 0 then ⟨0, 0⟩
  else
    ((List.range 17).findSome? fun i => b.withDigits? tie (i + 1)).getD ⟨b.mantissa, b.exponent⟩

end Binary

/-- `n` zeros. -/
def zeros (n : Nat) : String := String.ofList (List.replicate n '0')

/-- Digits with a point, and at least one place after it. -/
def pointed (d : Digits) : String :=
  let text := toString d.digits
  if 0 ≤ d.exponent then text ++ zeros d.exponent.toNat ++ ".0"
  else
    let places := (-d.exponent).toNat
    if places < text.length then
      String.ofList (text.toList.take (text.length - places)) ++ "." ++
        String.ofList (text.toList.drop (text.length - places))
    else "0." ++ zeros (places - text.length) ++ text

/-- The sign of a number, also of a negative zero. -/
def signText (f : Float) : String := if f.toBits.toNat / 0x8000000000000000 = 1 then "-" else ""

/-- The text of a number that is not finite. -/
def nonFiniteText (f : Float) : String :=
  if f.isNaN then "NaN" else signText f ++ "inf"

/-- A number without exponent. In the middle between two candidates the greater is taken. -/
def positionalText (f : Float) : String :=
  if f.isFinite then signText f ++ pointed ((Binary.ofFloat f).shortest .away)
  else nonFiniteText f

/-- A number with an exponent when its first digit stands outside the places from `10 ^ -5` to
`10 ^ 15`. In the middle between two candidates the even one is taken. -/
def compactText (f : Float) : String :=
  if !f.isFinite then nonFiniteText f
  else
    let d := (Binary.ofFloat f).shortest .toEven
    let text := toString d.digits
    let first : Int := d.exponent + text.length - 1
    if d.digits = 0 || (-5 ≤ first && first ≤ 15) then signText f ++ pointed d
    else
      let rest := String.ofList (text.toList.drop 1)
      signText f ++ String.ofList (text.toList.take 1) ++
        (if rest.isEmpty then "" else "." ++ rest) ++
        (if first < 0 then "e-" else "e+") ++ toString first.natAbs

end CqlGlue.Decimal
