/-!
# Digits

Digits of the bases two to sixteen, in either case, and the numbers they make up.

## Main definitions
* `digitValue?` is the value of a digit.
* `ofDigits` is the number with given digits.
-/

namespace CqlGlue.Toml

/-- The value of a digit in a base up to sixteen. -/
def digitValue? (base : Nat) (c : Char) : Option Nat :=
  let v? :=
    if '0' ≤ c && c ≤ '9' then some (c.toNat - 48)
    else if 'a' ≤ c && c ≤ 'f' then some (c.toNat - 87)
    else if 'A' ≤ c && c ≤ 'F' then some (c.toNat - 55)
    else none
  v?.bind fun v => if v < base then some v else none

/-- Whether a character is a digit in a base up to sixteen. -/
def isDigitIn (base : Nat) (c : Char) : Bool := (digitValue? base c).isSome

/-- The number with these digits. Characters that are no digits are passed over. -/
def ofDigits (base : Nat) (cs : List Char) : Nat :=
  (cs.filterMap (digitValue? base)).foldl (· * base + ·) 0

end CqlGlue.Toml
