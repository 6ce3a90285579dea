import CqlGlue.Listing.Basic
import CqlGlue.Text.Blank
import CqlGlue.Text.Pieces
import CqlGlue.Text.WordChar

/-!
# Reading a grammar listing

A listing is text in which `name ::= alternative | alternative` defines a production; all other
text is passed over. The rules of reading:

* A name runs from the start of a line to the separator `::=`. Where a line holds several
  separators the last one counts, and where the next text after a line, line ends included, is
  a separator, the whole line is the name.
* The right-hand side is the rest of the line on which the first text after the separator
  stands, which may be a later line. Reading goes on at the end of that line.
* Alternatives are separated by a bar with blanks on both sides. One that begins with the
  comment `nil` stands for the empty word and marks the production optional.
* The tokens of an alternative are double-quoted texts, single-quoted characters and words over
  word characters, `-` and `@`; other text between them is passed over. An alternative without
  tokens is dropped.

## Main definitions
* `nextDefinition` takes the first definition off a text.
* `alternatives`, `isNil` and `tokens` read a right-hand side.
* `Grammar.parse` reads a listing.
-/

namespace CqlGlue.Listing

open Text

/-- The separator between a name and its alternatives. -/
def defines : List Char := [':', ':', '=']

/-- The rest of the line a text begins in. -/
def lineOf (cs : List Char) : List Char := cs.takeWhile (· != '\n')

/-- What follows the line a text begins in, from its line end on. -/
def afterLine (cs : List Char) : List Char := cs.dropWhile (· != '\n')

theorem afterLine_length_le (cs : List Char) : (afterLine cs).length ≤ cs.length :=
  (List.dropWhile_sublist _).length_le

theorem length_lineOf_add_afterLine (cs : List Char) :
    (lineOf cs).length + (afterLine cs).length = cs.length := by
  rw [← List.length_append, lineOf, afterLine, List.takeWhile_append_dropWhile]

/-- The name defined at the start of a text and the text after its separator. The separator
is looked for first behind the line, then from the end of the line backwards. -/
def splitDefinition (cs : List Char) : Option (List Char × List Char) :=
  match dropText? defines (trimLeft (afterLine cs)) with
  | some after => some (lineOf cs, after)
  | none => (splitLast defines (lineOf cs)).map fun p => (p.1, p.2 ++ afterLine cs)

theorem length_of_dropText? {t cs rest : List Char} (h : dropText? t cs = some rest) :
    t.length + rest.length = cs.length := by
  rw [dropText?_eq_some_iff.1 h, List.length_append]

theorem length_of_splitLast {t cs before after : List Char}
    (h : splitLast t cs = some (before, after)) :
    before.length + t.length + after.length = cs.length := by
  induction cs generalizing before with
  | nil =>
    simp only [splitLast, Option.map_eq_some_iff, Prod.mk.injEq] at h
    obtain ⟨rest, hr, rfl, rfl⟩ := h
    have := length_of_dropText? hr
    simpa using this
  | cons c cs ih =>
    rw [splitLast] at h
    split at h
    · rename_i p hp
      simp only [Option.some.injEq, Prod.mk.injEq] at h
      obtain ⟨rfl, rfl⟩ := h
      have := ih hp
      simp only [List.length_cons]
      omega
    · simp only [Option.map_eq_some_iff, Prod.mk.injEq] at h
      obtain ⟨rest, hr, rfl, rfl⟩ := h
      have := length_of_dropText? hr
      simpa using this

theorem length_of_splitDefinition {cs name after : List Char}
    (h : splitDefinition cs = some (name, after)) : after.length < cs.length := by
  unfold splitDefinition at h
  split at h
  · rename_i rest hr
    simp only [Option.some.injEq, Prod.mk.injEq] at h
    obtain ⟨_, rfl⟩ := h
    have h1 := length_of_dropText? hr
    have h2 := trimLeft_length_le (afterLine cs)
    have h3 := afterLine_length_le cs
    simp only [defines, List.length_cons, List.length_nil] at h1
    omega
  · simp only [Option.map_eq_some_iff, Prod.mk.injEq, Prod.exists] at h
    obtain ⟨before, rest, hs, _, rfl⟩ := h
    have h1 := length_of_splitLast hs
    have h2 := length_lineOf_add_afterLine cs
    simp only [defines, List.length_cons, List.length_nil] at h1
    rw [List.length_append]
    omega

/-- The definitions of a text in order: each name as it stands before the separator, and the
line of its alternatives. -/
def definitions (cs : List Char) : List (List Char × List Char) :=
  match h : splitDefinition cs with
  | some (name, after) =>
    have := length_of_splitDefinition h
    have := trimLeft_length_le after
    have := afterLine_length_le (trimLeft after)
    (name, lineOf (trimLeft after)) :: definitions (afterLine (trimLeft after))
  | none =>
    match h' : afterLine cs with
    | [] => []
    | _ :: rest =>
      have := afterLine_length_le cs
      have : rest.length + 1 = (afterLine cs).length := by rw [h']; rfl
      definitions rest
termination_by cs.length

/-- What follows a bar with a blank behind it and any number of blanks before it. -/
def afterBar? (cs : List Char) : Option (List Char) :=
  match trimLeft cs with
  | '|' :: c :: rest => if isBlank c then some (trimLeft rest) else none
  | _ => none

theorem length_of_afterBar? {cs rest : List Char} (h : afterBar? cs = some rest) :
    rest.length + 1 < cs.length := by
  unfold afterBar? at h
  split at h
  · rename_i c r hc
    split at h
    · simp only [Option.some.injEq] at h
      have h1 := trimLeft_length_le cs
      have h2 := trimLeft_length_le r
      rw [hc] at h1
      simp only [List.length_cons] at h1
      rw [← h]
      omega
    · exact absurd h (by simp)
  · exact absurd h (by simp)

theorem length_of_bar {c : Char} {cs rest : List Char}
    (h : (if isBlank c then afterBar? cs else none) = some rest) :
    rest.length < (c :: cs).length := by
  split at h
  · have h1 := length_of_afterBar? h
    simp only [List.length_cons]
    omega
  · exact absurd h (by simp)

/-- The alternatives of a right-hand side: the pieces between bars that have blanks on both
sides. -/
def alternatives : List Char → List (List Char)
  | [] => [[]]
  | c :: cs =>
    match h : if isBlank c then afterBar? cs else none with
    | some rest =>
      have := length_of_bar h
      [] :: alternatives rest
    | none =>
      match alternatives cs with
      | [] => [[c]]
      | piece :: pieces => (c :: piece) :: pieces
termination_by cs => cs.length
decreasing_by
  · exact this
  · exact Nat.lt_succ_self _

/-- Whether an alternative begins with the comment that stands for the empty word. -/
def isNil (cs : List Char) : Bool :=
  match dropText? "/*".toList cs with
  | none => false
  | some rest =>
    match dropText? "nil".toList (trimLeft rest) with
    | none => false
    | some rest => (dropText? "*/".toList (trimLeft rest)).isSome

/-- Characters of bare tokens. -/
def isBareChar (c : Char) : Bool := isWordChar c || c == '-' || c == '@'

/-- The token at the start of a text, if there is one: a double-quoted text that is not
empty, a single-quoted character or an empty pair of single quotes, or a longest run of bare
characters. -/
def token? (cs : List Char) : Option (List Char) :=
  match cs with
  | [] => none
  | '"' :: rest =>
    let body := rest.takeWhile (· != '"')
    if body.isEmpty || (rest.dropWhile (· != '"')).isEmpty then none
    else some ('"' :: (body ++ ['"']))
  | '\'' :: c :: '\'' :: _ =>
    if c = '\n' then none else some ['\'', c, '\'']
  | '\'' :: '\'' :: _ => some ['\'', '\'']
  | c :: rest => if isBareChar c then some (c :: rest.takeWhile isBareChar) else none

theorem token?_ne_nil {cs t : List Char} (h : token? cs = some t) : t ≠ [] := by
  unfold token? at h
  split at h
  · simp at h
  · dsimp only at h
    split at h
    · simp at h
    · simp only [Option.some.injEq] at h; simp [← h]
  · split at h
    · simp at h
    · simp only [Option.some.injEq] at h; simp [← h]
  · simp only [Option.some.injEq] at h; simp [← h]
  · split at h
    · simp only [Option.some.injEq] at h; simp [← h]
    · simp at h

/-- The tokens of an alternative in order. -/
def tokens : List Char → List (List Char)
  | [] => []
  | c :: rest =>
    match h : token? (c :: rest) with
    | some t =>
      have := List.length_pos_iff.2 (token?_ne_nil h)
      t :: tokens ((c :: rest).drop t.length)
    | none => tokens rest
termination_by cs => cs.length
decreasing_by
  · rw [List.length_drop]; simp only [List.length_cons]; omega
  · simp

/-- Reads a right-hand side. -/
def readProduction (cs : List Char) : Production where
  choices := (((alternatives cs).filter (!isNil ·)).map
    fun choice => (tokens choice).map String.ofList).filter (!·.isEmpty)
  optional := (alternatives cs).any isNil

/-- The definitions of a listing, names trimmed and right-hand sides read. -/
def readDefinitions (cs : List Char) : List (String × Production) :=
  (definitions cs).map fun d => (String.ofList (trim d.1), readProduction d.2)

/-- Reads a listing. -/
def Grammar.parse (text : String) : Grammar :=
  Grammar.defineAll Table.empty (readDefinitions text.toList)

end CqlGlue.Listing
