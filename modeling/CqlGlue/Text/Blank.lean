/-!
# Blanks

White space in the sense of Unicode: the twenty-five code points with the property
`White_Space`. Listings are trimmed and split at these characters and at no others; a zero
width space or a byte order mark is not one of them.

## Main definitions
* `isBlank` decides the class.
* `trim` removes blanks at both ends of a text.
* `splitBlanks` cuts a text at its maximal runs of blanks.
-/

namespace CqlGlue.Text

/-- The characters with the Unicode property `White_Space`. -/
def isBlank (c : Char) : Bool :=
  let n := c.toNat
  (9 ≤ n && n ≤ 13) || n == 0x20 || n == 0x85 || n == 0xA0 || n == 0x1680 ||
    (0x2000 ≤ n && n ≤ 0x200A) || n == 0x2028 || n == 0x2029 || n == 0x202F ||
    n == 0x205F || n == 0x3000

/-- Drops the blanks in front. -/
def trimLeft (cs : List Char) : List Char := cs.dropWhile isBlank

/-- Drops the blanks at the end. -/
def trimRight (cs : List Char) : List Char := (cs.reverse.dropWhile isBlank).reverse

/-- Drops the blanks at both ends. -/
def trim (cs : List Char) : List Char := trimRight (trimLeft cs)

/-- `trim` on strings. -/
def trimmed (s : String) : String := String.ofList (trim s.toList)

theorem trimLeft_length_le (cs : List Char) : (trimLeft cs).length ≤ cs.length :=
  (List.dropWhile_sublist _).length_le

/-- The pieces between maximal runs of blanks. A run at either end leaves an empty piece
there, so the pieces are never none. -/
def splitBlanks (cs : List Char) : List (List Char) :=
  cs.takeWhile (!isBlank ·) ::
    match h : cs.dropWhile (!isBlank ·) with
    | [] => []
    | _ :: rest =>
      have : rest.length < cs.length := by
        have := (List.dropWhile_sublist (l := cs) (!isBlank ·)).length_le
        rw [h] at this
        simp only [List.length_cons] at this
        omega
      have := trimLeft_length_le rest
      splitBlanks (trimLeft rest)
termination_by cs.length

end CqlGlue.Text
