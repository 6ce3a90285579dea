import CqlGlue.Text.AlphanumericRanges
import CqlGlue.Text.WordChar

/-!
# Letters and numbers

The class of characters that are alphabetic or numeric in any script.

## Main definitions
* `isAlphanumeric` decides the class.
-/

namespace CqlGlue.Text

/-- The class of letters and numbers. ASCII is decided without the table. -/
def isAlphanumeric (c : Char) : Bool :=
  if c.toNat < 0x80 then c.isAlphanum else inRanges alphanumericRanges c.toNat

end CqlGlue.Text
