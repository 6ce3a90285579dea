import CqlGlue.Text.Pieces
import CqlGlue.Text.WordChar

/-!
# Whole-word search and substitution

A text occurs in another *as a whole word* where it stands between two word boundaries. For
a text made of word characters these are its occurrences as a maximal run of word characters;
a text that begins or ends with another character needs a word character next to that end.

## Main definitions
* `hasWord` decides whether there is an occurrence.
* `replaceWord` substitutes at every occurrence, from left to right and without overlap.
-/

namespace CqlGlue.Listing

open Text

/-- Whether `word` stands as a whole word at the start of `cs`, with `before` in front. -/
def wordAt (word : List Char) (before : Option Char) (cs : List Char) : Bool :=
  match dropText? word cs with
  | some rest => isBoundary before cs.head? && isBoundary word.getLast? rest.head?
  | none => false

/-- Whether `word` occurs as a whole word in `cs`, with `before` in front. -/
def hasWordAfter (word : List Char) (before : Option Char) : List Char → Bool
  | [] => false
  | c :: cs => wordAt word before (c :: cs) || hasWordAfter word (some c) cs

/-- Whether `word` occurs as a whole word in a text. -/
def hasWord (word cs : List Char) : Bool := hasWordAfter word none cs

/-- Substitution in `cs` with `before` in front, where the first `skip` characters belong to
an occurrence that has been substituted already. -/
def replaceWordAfter (word body : List Char) : Nat → Option Char → List Char → List Char
  | _, _, [] => []
  | skip + 1, _, c :: cs => replaceWordAfter word body skip (some c) cs
  | 0, before, c :: cs =>
    if wordAt word before (c :: cs) then
      body ++ replaceWordAfter word body (word.length - 1) (some c) cs
    else c :: replaceWordAfter word body 0 (some c) cs

/-- Puts `body` for every occurrence of `word` as a whole word. -/
def replaceWord (word body cs : List Char) : List Char := replaceWordAfter word body 0 none cs

/-- Without an occurrence nothing is substituted. -/
theorem replaceWordAfter_eq_self {word body : List Char} {before : Option Char} {cs : List Char}
    (h : hasWordAfter word before cs = false) : replaceWordAfter word body 0 before cs = cs := by
  induction cs generalizing before with
  | nil => rfl
  | cons c cs ih =>
    rw [hasWordAfter, Bool.or_eq_false_iff] at h
    rw [replaceWordAfter, h.1, ih h.2]
    simp

end CqlGlue.Listing
