/-!
# Cutting texts at fixed separators

Searching and cutting over lists of characters, with the separator given literally.

## Main definitions
* `dropText?` takes a literal off the front.
* `splitFirst` and `splitLast` cut at the first and the last occurrence of a literal.
* `splitChar` cuts at every occurrence of one character.
* `replaceFirst` and `replaceChar` substitute.
* `dropBytes?` and `takeBytes?` cut behind a number of bytes.
-/

namespace CqlGlue.Text

/-- What follows the literal `t`, when the text begins with it. -/
def dropText? : List Char → List Char → Option (List Char)
  | [], cs => some cs
  | t :: ts, c :: cs => if t = c then dropText? ts cs else none
  | _ :: _, [] => none

/-- Taking a literal off the front succeeds exactly on the texts that begin with it. -/
theorem dropText?_eq_some_iff {t cs rest : List Char} :
    dropText? t cs = some rest ↔ cs = t ++ rest := by
  induction t generalizing cs with
  | nil => simp [dropText?]
  | cons a t ih =>
    cases cs with
    | nil => simp [dropText?]
    | cons c cs =>
      by_cases h : a = c
      · simp [dropText?, h, ih]
      · simp [dropText?, h, Ne.symm h]

/-- Cuts at the first occurrence of `t`: what is before it and what is after it. -/
def splitFirst (t : List Char) : List Char → Option (List Char × List Char)
  | [] => (dropText? t []).map fun rest => ([], rest)
  | c :: cs =>
    match dropText? t (c :: cs) with
    | some rest => some ([], rest)
    | none => (splitFirst t cs).map fun p => (c :: p.1, p.2)

/-- Cuts at the last occurrence of `t`: what is before it and what is after it. -/
def splitLast (t : List Char) : List Char → Option (List Char × List Char)
  | [] => (dropText? t []).map fun rest => ([], rest)
  | c :: cs =>
    match splitLast t cs with
    | some p => some (c :: p.1, p.2)
    | none => (dropText? t (c :: cs)).map fun rest => ([], rest)

/-- The pieces between occurrences of `sep`; never none. -/
def splitChar (sep : Char) : List Char → List (List Char)
  | [] => [[]]
  | c :: cs =>
    if c = sep then [] :: splitChar sep cs
    else
      match splitChar sep cs with
      | [] => [[c]]
      | piece :: pieces => (c :: piece) :: pieces

/-- Puts `t` for the first occurrence of `mark`. -/
def replaceFirst (mark t cs : List Char) : List Char :=
  match splitFirst mark cs with
  | some (before, after) => before ++ t ++ after
  | none => cs

/-- Puts `t` for every occurrence of `mark`. -/
def replaceChar (mark : Char) (t cs : List Char) : List Char :=
  cs.flatMap fun c => if c = mark then t else [c]

/-- The number of bytes of a text. -/
def byteLength : List Char → Nat
  | [] => 0
  | c :: cs => c.utf8Size + byteLength cs

/-- What follows the first `n` bytes of a text, unless they end within a character. -/
def dropBytes? : Nat → List Char → Option (List Char)
  | 0, cs => some cs
  | _ + 1, [] => none
  | n + 1, c :: cs => if c.utf8Size ≤ n + 1 then dropBytes? (n + 1 - c.utf8Size) cs else none

/-- The first `n` bytes of a text, unless they end within a character. -/
def takeBytes? : Nat → List Char → Option (List Char)
  | 0, _ => some []
  | _ + 1, [] => none
  | n + 1, c :: cs =>
    if c.utf8Size ≤ n + 1 then (takeBytes? (n + 1 - c.utf8Size) cs).map (c :: ·) else none

/-- `splitChar` on strings. -/
def pieces (sep : Char) (s : String) : List String := (splitChar sep s.toList).map String.ofList

theorem splitChar_ne_nil (sep : Char) (cs : List Char) : splitChar sep cs ≠ [] := by
  cases cs with
  | nil => simp [splitChar]
  | cons c cs =>
    rw [splitChar]
    split
    · simp
    · split <;> simp

end CqlGlue.Text
