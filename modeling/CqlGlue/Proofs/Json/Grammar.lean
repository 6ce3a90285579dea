import CqlGlue.Proofs.Json.Gives

/-!
# Well-formed JSON

The texts of JSON values, as strings of characters. A value may be of any depth, a number of any
size and a string of any escapes, also of such as denote no character.

## Main definitions
* `IsValue` says that a text is a value.
* `Item` and `Member` are the parts of a list and of an object, with the blanks in them.
* `Spells` says what string the characters between two quotes denote.
-/

namespace CqlGlue.Json

open Decoder

/-- Nothing but blanks. -/
def IsBlanks (cs : List Char) : Prop := ∀ c ∈ cs, isJsonBlank c = true

/-- What may follow a value: nothing, a blank, a comma or a closing bracket. -/
def Ends (rest : List Char) : Prop :=
  ∀ c ∈ rest.head?, isJsonBlank c = true ∨ c ∈ [',', ']', '\x7d']

/-! ## Strings -/

/-- A character that stands for itself in a string. -/
def IsPlain (c : Char) : Prop := 0x20 ≤ c.toNat ∧ c ≠ '"' ∧ c ≠ '\\'

instance (c : Char) : Decidable (IsPlain c) :=
  inferInstanceAs (Decidable (0x20 ≤ c.toNat ∧ c ≠ '"' ∧ c ≠ '\\'))

/-- Characters that stand for themselves in a string. -/
def ArePlain (cs : List Char) : Prop := ∀ c ∈ cs, IsPlain c

instance (cs : List Char) : Decidable (ArePlain cs) := List.decidableBAll IsPlain cs

/-- Four hexadecimal digits and their number. -/
def IsHex (n : Nat) (ds : List Char) : Prop :=
  ∃ x y z w a b c d, ds = [x, y, z, w] ∧ hexValue? x = some a ∧ hexValue? y = some b ∧
    hexValue? z = some c ∧ hexValue? w = some d ∧ n = ((a * 16 + b) * 16 + c) * 16 + d

/-- The characters between the quotes of a string. Any number may be that of an escape. -/
inductive IsBody : List Char → Prop
  | nil : IsBody []
  | plain {c : Char} {cs : List Char} (hc : IsPlain c) (h : IsBody cs) : IsBody (c :: cs)
  | short {e c : Char} {cs : List Char} (he : shortEscape? e = some c) (h : IsBody cs) :
    IsBody ('\\' :: e :: cs)
  | numeric {n : Nat} {ds cs : List Char} (hds : IsHex n ds) (h : IsBody cs) :
    IsBody ('\\' :: 'u' :: (ds ++ cs))

/-- The characters between the quotes of a string and the characters that they denote. The number
of an escape is that of a character, or two escapes make a character by surrogates. -/
inductive Spells : List Char → List Char → Prop
  | nil : Spells [] []
  | plain {c : Char} {cs s : List Char} (hc : IsPlain c) (h : Spells cs s) :
    Spells (c :: cs) (c :: s)
  | short {e c : Char} {cs s : List Char} (he : shortEscape? e = some c) (h : Spells cs s) :
    Spells ('\\' :: e :: cs) (c :: s)
  | numeric {n : Nat} {ds cs s : List Char} (hds : IsHex n ds) (hn : n < 0xD800 ∨ 0xDFFF < n)
    (h : Spells cs s) : Spells ('\\' :: 'u' :: (ds ++ cs)) (Char.ofNat n :: s)
  | pair {n m : Nat} {ds es cs s : List Char} (hds : IsHex n ds) (hes : IsHex m es)
    (hn : 0xD800 ≤ n ∧ n ≤ 0xDBFF) (hm : 0xDC00 ≤ m ∧ m ≤ 0xDFFF) (h : Spells cs s) :
    Spells ('\\' :: 'u' :: (ds ++ '\\' :: 'u' :: (es ++ cs)))
      (Char.ofNat ((n - 0xD800) * 0x400 + (m - 0xDC00) + 0x10000) :: s)

/-! ## Numbers -/

/-- One digit or more. -/
def IsDigits (ds : List Char) : Prop := ds ≠ [] ∧ ∀ d ∈ ds, d.isDigit = true

/-- The part of a number before the point: no zero stands in front of another digit. -/
def IsInteger (ds : List Char) : Prop := IsDigits ds ∧ (ds.head? = some '0' → ds = ['0'])

/-- The part of a number from the point on. -/
def IsFraction (cs : List Char) : Prop := cs = [] ∨ ∃ ds, IsDigits ds ∧ cs = '.' :: ds

/-- The part of a number from the exponent mark on. -/
def IsExponent (cs : List Char) : Prop :=
  cs = [] ∨ ∃ mark ∈ ['e', 'E'], ∃ sign ∈ [[], ['+'], ['-']], ∃ ds,
    IsDigits ds ∧ cs = mark :: (sign ++ ds)

/-! ## Values -/

/-- A value with the blanks around it. -/
structure Item where
  before : List Char
  value : List Char
  after : List Char
  deriving DecidableEq

namespace Item

/-- The text of an item. -/
def text (x : Item) : List Char := x.before ++ (x.value ++ x.after)

/-- There are blanks around the value. -/
structure IsSpaced (x : Item) : Prop where
  before : IsBlanks x.before
  after : IsBlanks x.after

end Item

/-- A key with the blanks around it and the value after it. -/
structure Member where
  before : List Char
  /-- The characters between the quotes. -/
  key : List Char
  after : List Char
  item : Item
  deriving DecidableEq

namespace Member

/-- The text of a member. -/
def text (m : Member) : List Char :=
  m.before ++ ('"' :: (m.key ++ ('"' :: (m.after ++ (':' :: m.item.text)))))

/-- There are blanks around the key and around the value. -/
structure IsSpaced (m : Member) : Prop where
  before : IsBlanks m.before
  after : IsBlanks m.after
  item : m.item.IsSpaced

end Member

/-- Texts with commas in front. -/
def tailText (texts : List (List Char)) : List Char := texts.flatMap (',' :: ·)

/-- Texts with commas between them, or blanks where there is none. -/
def innerText (texts : List (List Char)) (blanks : List Char) : List Char :=
  match texts with
  | [] => blanks
  | t :: ts => t ++ tailText ts

/-- The text of a list. The blanks are for a list without items. -/
def listText (xs : List Item) (blanks : List Char) : List Char :=
  '[' :: (innerText (xs.map Item.text) blanks ++ [']'])

/-- The text of an object. The blanks are for an object without members. -/
def objectText (ms : List Member) (blanks : List Char) : List Char :=
  '\x7b' :: (innerText (ms.map Member.text) blanks ++ ['\x7d'])

/-- The text of a value. -/
inductive IsValue : List Char → Prop
  | null : IsValue ['n', 'u', 'l', 'l']
  | yes : IsValue ['t', 'r', 'u', 'e']
  | no : IsValue ['f', 'a', 'l', 's', 'e']
  | number {sign ds fraction exponent : List Char} (hsign : sign ∈ [[], ['-']])
    (hds : IsInteger ds) (hfraction : IsFraction fraction) (hexponent : IsExponent exponent) :
    IsValue (sign ++ (ds ++ (fraction ++ exponent)))
  | text {body : List Char} (hbody : IsBody body) : IsValue ('"' :: (body ++ ['"']))
  | list {xs : List Item} {blanks : List Char} (hblanks : IsBlanks blanks)
    (hspaced : ∀ x ∈ xs, x.IsSpaced) (hxs : ∀ x ∈ xs, IsValue x.value) :
    IsValue (listText xs blanks)
  | object {ms : List Member} {blanks : List Char} (hblanks : IsBlanks blanks)
    (hspaced : ∀ m ∈ ms, m.IsSpaced) (hkeys : ∀ m ∈ ms, IsBody m.key)
    (hms : ∀ m ∈ ms, IsValue m.item.value) : IsValue (objectText ms blanks)

end CqlGlue.Json
