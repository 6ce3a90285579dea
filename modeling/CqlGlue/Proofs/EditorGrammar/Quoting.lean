import CqlGlue.Text.Blank
import CqlGlue.Proofs.Text.Lowercase

/-!
# What is written in quotes

Marks come into the generated file with the quotes that they have in the listing, and the words of
keywords with new ones. Read there, a text in quotes stands for its characters only where none of
them begins an escape or ends the text. The function that is called with a word puts each letter
between brackets, and some characters have a meaning of their own there.

## Main definitions
* `quotedText?` is the text that quotes stand around.
* `accepts` says which texts the pattern made of a word accepts.
* `MatchesSpellings` are the words whose pattern accepts the word in either case and nothing else.
* `IsPlainKeyword` are the tokens without characters of another meaning.

## Main statements
* `IsPlainKeyword.matchesSpellings` says that the words of such a token are matched.
-/

namespace CqlGlue.EditorGrammar

open Text

/-- The text between quotes of either kind. A text with an escape is not read, and one with a line
end or one more quote inside is none. -/
def quotedText? (text : String) : Option String :=
  match text.toList with
  | mark :: rest =>
    if (mark = '\'' ∨ mark = '"') ∧ rest.getLast? = some mark ∧
        ∀ c ∈ rest.dropLast, c ∉ [mark, '\\', '\n', '\r'] then
      some (String.ofList rest.dropLast)
    else none
  | [] => none

/-- Whether a character is accepted by brackets around a letter and its capital. Behind a `^` they
hold what is to be left out, and a `]` closes them before anything is in them. -/
def inBrackets (letter c : Char) : Bool :=
  if letter = '^' then c != '^'
  else if letter = ']' then false
  else c == letter || c == letter.toUpper

/-- Whether the pattern made of a word, brackets after brackets, accepts a text. -/
def accepts : List Char → List Char → Bool
  | [], [] => true
  | letter :: letters, c :: cs => inBrackets letter c && accepts letters cs
  | _, _ => false

/-- A word in lower case whose pattern accepts the spellings of the word and nothing else. Capitals
beyond ASCII are not read. -/
structure MatchesSpellings (word : String) : Prop where
  quoted : quotedText? ("'" ++ word ++ "'") = some word
  ascii : ∀ c ∈ word.toList, c.toNat < 128
  spellings : ∀ cs, accepts word.toList cs = true ↔ cs.map Char.toLower = word.toList

/-- A token made of blanks and of ASCII characters that stand for themselves both in a quoted text
and between the brackets of a pattern, where the function that makes keywords match in either case
puts them. -/
def IsPlainKeyword (t : String) : Prop :=
  ∀ c ∈ t.toList, isBlank c = true ∨ c.toNat < 128 ∧ c ∉ ['\'', '\\', '^', ']']

instance (t : String) : Decidable (IsPlainKeyword t) :=
  List.decidableBAll _ t.toList

/-- The word is made of characters of the token that are not blank. -/
def IsWordOf (token word : String) : Prop :=
  ∀ c ∈ word.toList, c ∈ token.toList ∧ isBlank c = false

/-! ## Quotes -/

theorem quotedText?_of_enclosed {text : String} {mark : Char} {body : List Char}
    (htext : text.toList = mark :: (body ++ [mark])) (hmark : mark = '\'' ∨ mark = '"')
    (hbody : ∀ c ∈ body, c ∉ [mark, '\\', '\n', '\r']) :
    quotedText? text = some (String.ofList body) := by
  have hlast : (body ++ [mark]).getLast? = some mark := by simp
  rw [quotedText?, htext]
  dsimp only
  rw [List.dropLast_concat, if_pos ⟨hmark, hlast, hbody⟩]

/-! ## Brackets -/

theorem accepts_iff {letters : List Char}
    (h : ∀ c ∈ letters, c.toLower = c ∧ c ≠ '^' ∧ c ≠ ']') (cs : List Char) :
    accepts letters cs = true ↔ cs.map Char.toLower = letters := by
  induction letters generalizing cs with
  | nil => cases cs <;> simp [accepts]
  | cons letter letters ih =>
    obtain ⟨hletter, hcaret, hbracket⟩ := h letter List.mem_cons_self
    cases cs with
    | nil => simp [accepts]
    | cons c cs =>
      rw [accepts, Bool.and_eq_true, ih (fun c hc => h c (List.mem_cons_of_mem _ hc)),
        List.map_cons, List.cons.injEq, toLower_eq_iff hletter, inBrackets, if_neg hcaret,
        if_neg hbracket, Bool.or_eq_true, beq_iff_eq, beq_iff_eq]

/-- The characters with another meaning in quotes or brackets, and line ends. -/
def specials : List Char := ['\'', '\\', '^', ']', '\n', '\r']

theorem toLower_not_mem_specials {c : Char} (h : c ∉ specials) : c.toLower ∉ specials := by
  intro hmem
  have hcase : ∀ d ∈ specials, d.toLower = d ∧ d.toUpper = d := by simp [specials]
  obtain ⟨hlower, hupper⟩ := hcase _ hmem
  exact h (eq_of_toLower_eq rfl hlower hupper ▸ hmem)

theorem matchesSpellings_of_ascii {word : String}
    (h : ∀ c ∈ word.toList, c.toNat < 128 ∧ c ∉ specials) : MatchesSpellings (lowercase word) := by
  have hlower : (lowercase word).toList = word.toList.map Char.toLower :=
    toList_lowercase_of_ascii fun c hc => (h c hc).1
  have hletters : ∀ c ∈ (lowercase word).toList,
      c.toNat < 128 ∧ c.toLower = c ∧ c ∉ specials := by
    rw [hlower, List.forall_mem_map]
    intro c hc
    exact ⟨toNat_toLower_lt (h c hc).1, Char.toLower_toLower_eq_toLower c,
      toLower_not_mem_specials (h c hc).2⟩
  refine ⟨?_, fun c hc => (hletters c hc).1, accepts_iff fun c hc => ?_⟩
  · have htext : ("'" ++ lowercase word ++ "'").toList =
        '\'' :: ((lowercase word).toList ++ ['\'']) := by
      simp only [String.toList_append]
      rfl
    rw [quotedText?_of_enclosed htext (.inl rfl), String.ofList_toList]
    have hspecials : ['\'', '\\', '\n', '\r'] ⊆ specials := by simp [specials]
    exact fun c hc hmem => (hletters c hc).2.2 (hspecials hmem)
  · obtain ⟨-, hc', hspecial⟩ := hletters c hc
    refine ⟨hc', ?_, ?_⟩
    · rintro rfl
      exact hspecial (by decide)
    · rintro rfl
      exact hspecial (by decide)

/-- Every word of a plain keyword is matched in either case. -/
theorem IsPlainKeyword.matchesSpellings {token word : String} (h : IsPlainKeyword token)
    (hword : IsWordOf token word) : MatchesSpellings (lowercase word) := by
  apply matchesSpellings_of_ascii
  intro c hc
  obtain ⟨htoken, hvisible⟩ := hword c hc
  rcases h c htoken with hblank | ⟨hascii, hplain⟩
  · exact absurd (hblank.symm.trans hvisible) (by decide)
  · refine ⟨hascii, fun hmem => ?_⟩
    have hcases : ∀ d ∈ specials, isBlank d = true ∨ d ∈ ['\'', '\\', '^', ']'] := by
      simp [specials, isBlank]
    rcases hcases c hmem with hblank | hmarks
    · exact absurd (hblank.symm.trans hvisible) (by decide)
    · exact hplain hmarks

end CqlGlue.EditorGrammar
