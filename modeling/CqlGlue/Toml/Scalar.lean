import CqlGlue.Toml.Moment
import CqlGlue.Toml.Quoted

/-!
# Values without parts

What a piece stands for as a value. A piece between quotes is a text. Of the others the first
characters tell what is meant: a number, a moment or a word; what begins in no such way is a
text whose quotes were forgotten. Digits may be grouped by single underscores between them, and
numbers other than zero have no leading zero.

## Main definitions
* `Scalar` is a value without parts.
* `scalarOf` reads a piece.
-/

namespace CqlGlue.Toml

/-- Values without parts. -/
inductive Scalar where
  | text (s : String)
  | integer (i : Int)
  | float (f : Float)
  | boolean (b : Bool)
  | moment (m : Moment)
  /-- An integer, or a float, for which there is no place in storage. -/
  | overflow (isFloat : Bool)

/-! ## Numbers -/

/-- A sign and what follows it. -/
def splitSign : List Char → Bool × List Char
  | '-' :: cs => (true, cs)
  | '+' :: cs => (false, cs)
  | cs => (false, cs)

/-- Cuts at the first character of a class. -/
def cutAt (p : Char → Bool) (cs : List Char) : List Char × List Char :=
  (cs.takeWhile (!p ·), (cs.dropWhile (!p ·)).drop 1)

/-- Whether an integer can be stored at all: in a hundred and twenty-eight bits. -/
def isStored (i : Int) : Bool :=
  -0x80000000000000000000000000000000 ≤ i && i < 0x100000000000000000000000000000000

/-- An integer out of a sign and digits. -/
def integerOf (base : Base) (cs : List Char) : Scalar :=
  let (negative, digits) := splitSign cs
  let n : Int := ofDigits base.value digits
  let i := if negative then -n else n
  if !digits.isEmpty && digits.all (isDigitIn base.value) && isStored i then .integer i
  else .overflow false

/-- The float `digits * 10 ^ exponent`. -/
def scientific (negative : Bool) (digits : List Char) (exponent : Int) : Float :=
  let n := ofDigits 10 digits
  let f :=
    if n = 0 || (digits.length : Int) + exponent < -400 then 0.0
    else if exponent < 0 then Float.ofScientific n true (-exponent).toNat
    else if exponent > 400 then 1.0 / 0.0
    else Float.ofScientific n false exponent.toNat
  if negative then -f else f

/-- A float out of a sign, digits, a fraction and an exponent. -/
def floatOf (cs : List Char) : Scalar :=
  let (negative, unsigned) := splitSign cs
  let (before, power) := cutAt (fun c => c == 'e' || c == 'E') unsigned
  let (whole, fraction) := cutAt (· == '.') before
  let (down, digits) := splitSign power
  let size : Int := ofDigits 10 digits
  let exponent := (if down then -size else size) - (fraction.length : Int)
  let f := scientific negative (whole ++ fraction) exponent
  if f.isInf then .overflow true else .float f

/-! ## Underscores -/

/-- The stretch of a piece between two of its bytes. -/
def Piece.part (p : Piece) (first stop : Nat) : Span := ⟨p.first + first, p.first + stop⟩

/-- The place of the first underscore that is not between digits, where `n` bytes stand before
the characters and `afterDigit` tells whether the last of them is a digit. -/
def misplaced? (isDigit : Char → Bool) (n : Nat) (afterDigit : Bool) : List Char → Option Nat
  | [] => none
  | c :: cs =>
    if c == '_' && !(afterDigit && cs.head?.any isDigit) then some n
    else misplaced? isDigit (n + c.utf8Size) (isDigit c) cs

/-- A number without the underscores that group its digits. It begins `start` bytes into its
piece. -/
def ungrouped (p : Piece) (isDigit : Char → Bool) (start : Nat) (number : List Char) :
    Except Fault (List Char) :=
  match misplaced? isDigit (p.first + start) false number with
  | some n => fault .underscore ⟨n, n + 1⟩
  | none => .ok (number.filter (· != '_'))

/-- The integer that begins `start` bytes into its piece. -/
def groupedInteger (p : Piece) (base : Base) (start : Nat) (number : List Char) :
    Except Fault Scalar :=
  (ungrouped p (isDigitIn 16) start number).map (integerOf base)

/-! ## Plain pieces -/

/-- What is wrong with a piece that begins like no value: its quotes, or one of them, were
forgotten. -/
def unquoted {α : Type} (p : Piece) : Except Fault α :=
  let marks := [Quotation.longLiteral, .longBasic, .literal, .basic]
  match marks.find? fun q => q.mark.isSuffixOf p.text with
  | some q => fault (.openingQuoteMissing q) p.span.before
  | none => fault .notQuoted p.span

/-- A word. Words of several parts are texts without quotes. -/
def wordOf (p : Piece) (w : Word) (s : Scalar) : Except Fault Scalar :=
  if p.text == w.text.toList then .ok s
  else if p.text.contains ' ' then unquoted p
  else fault (.notWord w) p.span

/-- A word behind a sign. -/
def signedWord (p : Piece) (w : Word) (start : Nat) (value : List Char) (s : Scalar) :
    Except Fault Scalar :=
  if value == w.text.toList then .ok s
  else fault (.notWord w) ⟨p.first + start, p.span.stop⟩

/-- The digits of a part of a float and what follows them. -/
def floatPart (p : Piece) (part : FloatPart) (start : Nat) (cs : List Char) :
    Except Fault (Nat × List Char) :=
  let taken := cs.takeWhile fun c => c.isDigit || c == '_'
  let count := taken.countP Char.isDigit
  if count = 0 then fault (.noDigits part) (.at (p.first + start))
  else if 1 < count && part == .mantissa && taken.head? == some '0' then
    fault .leadingZero (p.part start (start + 1))
  else .ok (start + taken.length, cs.drop taken.length)

/-- A fraction and what follows it, if there is one. -/
def floatFraction (p : Piece) (start : Nat) (cs : List Char) : Except Fault (Nat × List Char) :=
  match cs with
  | '.' :: cs => floatPart p .fraction (start + 1) cs
  | cs => .ok (start, cs)

/-- An exponent and what follows it, if there is one. -/
def floatExponent (p : Piece) (start : Nat) (cs : List Char) : Except Fault (Nat × List Char) :=
  match cs with
  | 'e' :: '+' :: cs | 'e' :: '-' :: cs | 'E' :: '+' :: cs | 'E' :: '-' :: cs =>
    floatPart p .exponent (start + 2) cs
  | 'e' :: cs | 'E' :: cs => floatPart p .exponent (start + 1) cs
  | cs => .ok (start, cs)

/-- A float whose mantissa begins `start` bytes into the piece. -/
def floatNumber (p : Piece) (start : Nat) (value : List Char) : Except Fault Scalar := do
  let (afterMantissa, rest) ← floatPart p .mantissa start value
  let (afterFraction, rest) ← floatFraction p afterMantissa rest
  let (afterExponent, rest) ← floatExponent p afterFraction rest
  if !rest.isEmpty then fault .textAfterFloat ⟨p.first + afterExponent, p.span.stop⟩
  else return floatOf (← ungrouped p Char.isDigit 0 p.text)

/-- An integer in base ten whose digits begin `start` bytes into the piece. -/
def decimalNumber (p : Piece) (start : Nat) (value : List Char) : Except Fault Scalar :=
  if value.head? == some '0' then fault .leadingZero (p.part start (start + 1))
  else groupedInteger p .ten 0 p.text

/-- A moment that fills the piece. -/
def momentOf (p : Piece) : Except Fault Scalar :=
  match Moment.ofChars p.text with
  | .ok m => .ok (.moment m)
  | .error c => fault c p.span

/-- A number or a moment whose digits begin `start` bytes into the piece. -/
def numberOrMoment (p : Piece) (start : Nat) (value : List Char) : Except Fault Scalar :=
  let rest := value.dropWhile Char.isDigit
  if rest.isEmpty then decimalNumber p start value
  else if rest.head? == some '-' || rest.head? == some ':' then momentOf p
  else if rest.contains ' ' then unquoted p
  else if rest.any fun c => c == '.' || c == 'e' || c == 'E' then floatNumber p start value
  else if rest.head? == some '_' then decimalNumber p start value
  else unquoted p

/-- The base that a letter behind a zero announces, and whether the letter is a small one. -/
def baseOf? (c : Char) : Option (Base × Bool) :=
  ([Base.two, .eight, .ten, .sixteen].find? fun b => b.letter == c.toLower).map fun b =>
    (b, b.letter == c)

/-- The digits of an integer behind a zero and the letter of its base. -/
def basedDigits (p : Piece) (base : Base) (start : Nat) (digits : List Char) :
    Except Fault Scalar :=
  if digits.head?.any fun c => c == '+' || c == '-' then
    fault .signAfterBase (p.part start (start + 1))
  else
    let good := digits.takeWhile fun c => isDigitIn base.value c || c == '_'
    if good.length < digits.length then
      fault (.baseDigit base) (.at (p.first + start + good.length))
    else groupedInteger p base start digits

/-- A value whose digits begin with a zero, `start` bytes into the piece. -/
def zeroNumber (p : Piece) (signed : Bool) (start : Nat) (value : List Char) :
    Except Fault Scalar :=
  match value with
  | _ :: c :: digits =>
    match baseOf? c with
    | none => numberOrMoment p start value
    | some (base, small) =>
      if digits.contains ' ' then unquoted p
      else if signed then fault .signedBase (p.part 0 1)
      else if base == .ten then fault .decimalBase (p.part start (start + 2))
      else if !small then fault (.upperCaseBase base) (p.part start (start + 2))
      else basedDigits p base (start + 2) digits
  | _ => groupedInteger p .ten 0 p.text

/-- A value behind a sign, `start` bytes into the piece. Values of several parts are texts
without quotes. -/
def signedNumber (p : Piece) (negative : Bool) (start : Nat) (value : List Char) :
    Except Fault Scalar :=
  let infinity := 1.0 / 0.0
  if value.contains ' ' then unquoted p
  else match value.head? with
  | some '+' | some '-' => fault .secondSign (p.part start (start + 1))
  | some '.' => floatNumber p 0 p.text
  | some '0' => zeroNumber p true start value
  | some 'i' | some 'I' =>
    signedWord p .infinity start value (.float (if negative then -infinity else infinity))
  | some 'n' | some 'N' => signedWord p .notANumber start value (.float (0.0 / 0.0))
  | some c => if c.isDigit || c == '_' then numberOrMoment p start value else unquoted p
  | none => unquoted p

/-- A value without quotes. -/
def plainScalar (p : Piece) : Except Fault Scalar :=
  match p.text.head? with
  | some '+' => signedNumber p false 1 (p.text.drop 1)
  | some '-' => signedNumber p true 1 (p.text.drop 1)
  | some '.' => if p.text.contains ' ' then unquoted p else floatNumber p 0 p.text
  | some '0' => zeroNumber p false 0 p.text
  | some 't' | some 'T' => wordOf p .yes (.boolean true)
  | some 'f' | some 'F' => wordOf p .no (.boolean false)
  | some 'i' | some 'I' => wordOf p .infinity (.float (1.0 / 0.0))
  | some 'n' | some 'N' => wordOf p .notANumber (.float (0.0 / 0.0))
  | some c => if c.isDigit || c == '_' then numberOrMoment p 0 p.text else unquoted p
  | none => unquoted p

/-- A value out of its piece. -/
def scalarOf (p : Piece) : Except Fault Scalar :=
  match p.quotation with
  | some q => (quotedText q p).map .text
  | none => plainScalar p

end CqlGlue.Toml
