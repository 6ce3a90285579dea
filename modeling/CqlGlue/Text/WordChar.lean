import CqlGlue.Text.WordRanges

/-!
# Word characters

The characters words are made of: alphabetic characters, marks, decimal digits, connecting
punctuation such as `_`, and the two join controls. A *word boundary* lies where exactly one
of the two neighbouring characters is a word character; the ends of the text count as
neighbours that are not.

## Main definitions
* `isWordChar` decides the class.
* `isBoundary` decides whether a boundary lies between two neighbours.
-/

namespace CqlGlue.Text

/-- Whether one of the inclusive ranges holds the code point. -/
def inRanges (ranges : Array (Nat × Nat)) (n : Nat) : Bool :=
  ranges.any fun r => r.1 ≤ n && n ≤ r.2

/-- The class of word characters. ASCII is decided without the table. -/
def isWordChar (c : Char) : Bool :=
  if c.toNat < 0x80 then c.isAlphanum || c == '_' else inRanges wordRanges c.toNat

/-- A boundary between the character before and the one after, where `none` is the end of
the text. -/
def isBoundary (before after : Option Char) : Bool :=
  before.any isWordChar != after.any isWordChar

theorem isWordChar_of_isAlphanum {c : Char} (h : c.isAlphanum = true) : isWordChar c = true := by
  unfold isWordChar
  split
  · simp [h]
  · rename_i hc
    have hn : c.toNat ≤ 122 := by
      delta Char.isAlphanum Char.isAlpha Char.isUpper Char.isLower Char.isDigit at h
      simp only [Bool.or_eq_true, Bool.and_eq_true, decide_eq_true_eq,
        UInt32.le_iff_toNat_le] at h
      rcases h with (⟨_, h2⟩ | ⟨_, h2⟩) | ⟨_, h2⟩
      · exact Nat.le_trans h2 (by decide)
      · exact Nat.le_trans h2 (by decide)
      · exact Nat.le_trans h2 (by decide)
    omega

end CqlGlue.Text
