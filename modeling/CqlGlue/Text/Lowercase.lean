import CqlGlue.Text.CaseRanges
import CqlGlue.Text.WordChar

/-!
# Lower case

The full lower-case form of a text. A character maps to its single lower-case counterpart
except in two places: `İ` becomes an `i` with a combining dot above, and a capital sigma takes
its final form `ς` where it ends a word. Ends a word means: passing over case-ignorable
characters, there is a cased character before it and none after it.

## Main definitions
* `lowerChar` is the single-character map.
* `lowercase` is the map on texts.
-/

namespace CqlGlue.Text

/-- The lower-case counterpart of a character, itself where it has none. -/
def lowerChar (c : Char) : Char :=
  if c.toNat < 0x80 then c.toLower
  else
    match caseRuns.find? fun r => r.first ≤ c.toNat && c.toNat ≤ r.last with
    | some r =>
      if (c.toNat - r.first) % r.step == 0 then Char.ofNat (r.target + (c.toNat - r.first)) else c
    | none => c

/-- Characters passed over when looking for a cased neighbour. -/
def isCaseIgnorable (c : Char) : Bool :=
  if c.toNat < 0x80 then "'.:^`".toList.contains c else inRanges caseIgnorableRanges c.toNat

/-- Characters that belong to an upper, lower or title case. -/
def isCased (c : Char) : Bool :=
  if c.toNat < 0x80 then c.isAlpha else inRanges casedRanges c.toNat

/-- Whether the first character that is not case-ignorable is cased. -/
def meetsCased (cs : List Char) : Bool :=
  (cs.dropWhile isCaseIgnorable).head?.any isCased

/-- Lower case of what follows, where `before` is the text already passed, nearest first. -/
def lowercaseAfter (before : List Char) : List Char → List Char
  | [] => []
  | 'Σ' :: rest =>
    (if meetsCased before && !meetsCased rest then 'ς' else 'σ') ::
      lowercaseAfter ('Σ' :: before) rest
  | 'İ' :: rest => 'i' :: '\u0307' :: lowercaseAfter ('İ' :: before) rest
  | c :: rest => lowerChar c :: lowercaseAfter (c :: before) rest

/-- The lower-case form of a text. -/
def lowercase (s : String) : String := String.ofList (lowercaseAfter [] s.toList)

end CqlGlue.Text
