import CqlGlue.Text.HiddenRanges
import CqlGlue.Text.WordChar

/-!
# Quoted text in messages

How a message shows a piece of text it complains about: between double quotes, with quotes
and backslashes escaped, the usual short escapes for tab, line feed, carriage return and the
zero character, and every other character that could not be seen written by its number.

## Main definitions
* `showChar` is the spelling of one character.
* `quoted` is the spelling of a text.
-/

namespace CqlGlue.Text

/-- Characters that cannot be shown as themselves. -/
def isHidden (c : Char) : Bool :=
  if c.toNat < 0x80 then c.toNat < 0x20 || c.toNat == 0x7F else inRanges hiddenRanges c.toNat

/-- The number of a character in lower-case hexadecimal, without leading zeros. -/
def hexNumber (c : Char) : List Char := Nat.toDigits 16 c.toNat

/-- The spelling of one character between double quotes. -/
def showChar (c : Char) : List Char :=
  if c = '"' then ['\\', '"']
  else if c = '\\' then ['\\', '\\']
  else if c = '\n' then ['\\', 'n']
  else if c = '\r' then ['\\', 'r']
  else if c = '\t' then ['\\', 't']
  else if c.toNat = 0 then ['\\', '0']
  else if isHidden c then ['\\', 'u', '\x7b'] ++ hexNumber c ++ ['\x7d']
  else [c]

/-- A text as messages show it. -/
def quoted (s : String) : String :=
  String.ofList ('"' :: (s.toList.flatMap showChar ++ ['"']))

end CqlGlue.Text
