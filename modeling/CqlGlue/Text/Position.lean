/-!
# Places in a text

The line and the column of a byte of a text, counted from zero. Columns count characters, but
at a character of several bytes they count bytes. The place behind the last byte follows that
of the last byte, also where that is a line end.

## Main definitions
* `Position` is a line and a column.
* `Position.ofByte` finds the position of a byte.
-/

namespace CqlGlue.Text

/-- A line and a column, counted from zero. -/
structure Position where
  line : Nat
  column : Nat
  deriving DecidableEq, Repr

namespace Position

/-- The position of the `n`-th of the characters still to be passed, where `chars` characters
and `bytes` bytes of the line have been passed. -/
def onwards (n line chars bytes : Nat) : List Char → Position
  | [] => ⟨line, chars + n⟩
  | c :: cs =>
    if n + 1 = c.utf8Size then ⟨line, chars⟩
    else if n < c.utf8Size then ⟨line, bytes + n⟩
    else if c = '\n' then onwards (n - 1) (line + 1) 0 0 cs
    else onwards (n - c.utf8Size) line (chars + 1) (bytes + c.utf8Size) cs

/-- The position of a byte. -/
def ofByte (cs : List Char) (n : Nat) : Position :=
  let last := (cs.map Char.utf8Size).foldl (· + ·) 0 - 1
  let place := onwards (min n last) 0 0 0 cs
  { place with column := place.column + (n - last) }

end Position

end CqlGlue.Text
