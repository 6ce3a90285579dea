import CqlGlue.Proofs.Listing.Written
import Mathlib.Data.List.TakeWhile

/-!
# Reading back a grammar

A grammar written with one production on a line is read back: a name with spaces around the
separator, bars with spaces around them between alternatives, a comment for the empty word, and a
space between two tokens. Lines without the separator may stand anywhere between the productions.
Names may come more than once; the alternatives of the last production of a name count.

## Main definitions
* `WrittenToken`, `WrittenRule` and `WrittenLine` are what is written, `IsWritten` says what may be.
* `writtenText` is the text.

## Main statements
* `WrittenToken.IsWritten.isToken` reads back one token.
* `entries_parse_writtenText` reads back a grammar.
-/

namespace CqlGlue.Listing

open Text

/-! ## What is written -/

/-- A token: a word, a character in single quotes or a text in double quotes. -/
inductive WrittenToken where
  | word (cs : List Char)
  | character (c : Char)
  | phrase (body : List Char)

/-- A production: a name with alternatives, where `none` is the empty word. -/
structure WrittenRule where
  name : List Char
  alternatives : List (Option (List WrittenToken))

/-- A line: a production, or a text that is passed over. -/
inductive WrittenLine where
  | other (text : List Char)
  | rule (r : WrittenRule)

namespace WrittenToken

/-- The token with its quotes. -/
def text : WrittenToken → List Char
  | word cs => cs
  | character c => ['\'', c, '\'']
  | phrase body => '"' :: (body ++ ['"'])

/-- A word is made of characters of bare tokens, a character stands on the line, and a text in
double quotes holds no double quote, no separator and no bar with blanks on both sides. -/
def IsWritten : WrittenToken → Prop
  | word cs => cs ≠ [] ∧ ∀ c ∈ cs, isBareChar c = true
  | character c => c ≠ '\n'
  | phrase body =>
    body ≠ [] ∧ '"' ∉ body ∧ '\n' ∉ body ∧ ¬ defines <:+: body ∧ holdsBar body = false

instance : (t : WrittenToken) → Decidable t.IsWritten
  | word cs => decidable_of_iff (cs ≠ [] ∧ cs.all isBareChar = true)
    (and_congr_right fun _ => List.all_eq_true)
  | character _ => inferInstanceAs (Decidable (_ ≠ _))
  | phrase _ => inferInstanceAs (Decidable (_ ∧ _))

end WrittenToken

namespace WrittenRule

/-- An alternative, with a space between two tokens. -/
def alternativeText : Option (List WrittenToken) → List Char
  | none => "/* nil */".toList
  | some ts => [' '].intercalate (ts.map WrittenToken.text)

/-- The line of the production. -/
def text (r : WrittenRule) : List Char :=
  r.name ++ [' '] ++ defines ++ [' '] ++
    [' ', '|', ' '].intercalate (r.alternatives.map alternativeText)

/-- The name is a trimmed text on the line without the separator, there is an alternative, and every
alternative is the empty word or has a token. -/
structure IsWritten (r : WrittenRule) : Prop where
  name : r.name ≠ []
  trimmed : trim r.name = r.name
  line : '\n' ∉ r.name
  separator : ¬ defines <:+: r.name
  ne_nil : r.alternatives ≠ []
  alternatives : ∀ a ∈ r.alternatives, ∀ ts ∈ a, ts ≠ [] ∧ ∀ t ∈ ts, t.IsWritten

instance (r : WrittenRule) : Decidable r.IsWritten :=
  decidable_of_iff (r.name ≠ [] ∧ trim r.name = r.name ∧ '\n' ∉ r.name ∧ ¬ defines <:+: r.name ∧
      r.alternatives ≠ [] ∧ ∀ a ∈ r.alternatives, ∀ ts ∈ a, ts ≠ [] ∧ ∀ t ∈ ts, t.IsWritten)
    ⟨fun h => ⟨h.1, h.2.1, h.2.2.1, h.2.2.2.1, h.2.2.2.2.1, h.2.2.2.2.2⟩,
      fun h => ⟨h.name, h.trimmed, h.line, h.separator, h.ne_nil, h.alternatives⟩⟩

/-- The name and the production as they are read. -/
def definition (r : WrittenRule) : String × Production :=
  (String.ofList r.name,
    { choices := (r.alternatives.filterMap id).map fun ts => ts.map fun t => String.ofList t.text
      optional := r.alternatives.any Option.isNone })

end WrittenRule

namespace WrittenLine

/-- The line as it is written. -/
def text : WrittenLine → List Char
  | other text => text
  | rule r => r.text

/-- A line that is passed over is any line without the separator. -/
def IsWritten : WrittenLine → Prop
  | other text => '\n' ∉ text ∧ ¬ defines <:+: text
  | rule r => r.IsWritten

instance : (l : WrittenLine) → Decidable l.IsWritten
  | other _ => inferInstanceAs (Decidable (_ ∧ _))
  | rule r => inferInstanceAs (Decidable r.IsWritten)

/-- The production on the line, if there is one. -/
def rule? : WrittenLine → Option WrittenRule
  | other _ => none
  | rule r => some r

end WrittenLine

/-- The text of lines. -/
def writtenText (lines : List WrittenLine) : String :=
  String.ofList (['\n'].intercalate (lines.map WrittenLine.text))

/-- The names and productions of lines as they are read. -/
def writtenDefinitions (lines : List WrittenLine) : List (String × Production) :=
  (lines.filterMap WrittenLine.rule?).map WrittenRule.definition

/-! ## Tokens -/

/-- Without blanks there is no bar between blanks. -/
theorem holdsBar_of_forall {cs : List Char} (h : ∀ c ∈ cs, isBlank c = false) :
    holdsBar cs = false := by
  induction cs with
  | nil => rfl
  | cons a cs ih =>
    have hrest := ih fun c hc => h c (List.mem_cons_of_mem _ hc)
    rcases cs with _ | ⟨b, _ | ⟨c, cs⟩⟩
    · rfl
    · rfl
    · rw [holdsBar, h a List.mem_cons_self, hrest]
      rfl

/-- A character in front that is no blank makes no bar stand between blanks. -/
theorem holdsBar_cons {a : Char} (ha : isBlank a = false) {cs : List Char}
    (h : holdsBar cs = false) : holdsBar (a :: cs) = false := by
  rcases cs with _ | ⟨b, _ | ⟨c, cs⟩⟩
  · rfl
  · rfl
  · rw [holdsBar, ha, h]
    rfl

/-- Nor does one behind. -/
theorem holdsBar_concat {a : Char} (ha : isBlank a = false) {cs : List Char}
    (h : holdsBar cs = false) : holdsBar (cs ++ [a]) = false := by
  induction cs with
  | nil => rfl
  | cons b cs ih =>
    rcases cs with _ | ⟨c, _ | ⟨d, cs⟩⟩
    · rfl
    · rw [List.cons_append, List.cons_append, List.nil_append, holdsBar, ha, Bool.and_false]
      rfl
    · rw [holdsBar, Bool.or_eq_false_iff] at h
      have hrest := ih h.2
      rw [List.cons_append, List.cons_append] at hrest
      rw [List.cons_append, List.cons_append, List.cons_append, holdsBar, h.1, hrest]
      rfl

theorem isToken_word {cs : List Char} (hne : cs ≠ []) (h : ∀ c ∈ cs, isBareChar c = true) :
    IsToken cs where
  token := by
    cases cs with
    | nil => exact absurd rfl hne
    | cons c cs =>
      have hcs : ∀ d ∈ cs, isBareChar d = true := fun d hd => h d (List.mem_cons_of_mem _ hd)
      rw [token?_bare (h c List.mem_cons_self), List.takeWhile_eq_self_iff.2 hcs]
  bar := holdsBar_of_forall fun c hc => isBlank_of_isBareChar (h c hc)
  line hmem := absurd (h _ hmem) (by decide)
  separator hin := absurd (h ':' (hin.subset (by decide))) (by decide)

theorem isToken_character {c : Char} (hc : c ≠ '\n') : IsToken ['\'', c, '\''] where
  token := if_neg hc
  bar := holdsBar_cons (by decide) rfl
  line hmem := by
    simp only [List.mem_cons, List.not_mem_nil, or_false] at hmem
    rcases hmem with hmem | hmem | hmem
    · cases hmem
    · exact hc hmem.symm
    · cases hmem
  separator hin := by
    have heq := hin.eq_of_length rfl
    cases heq

theorem isToken_phrase {body : List Char} (hne : body ≠ []) (hquote : '"' ∉ body)
    (hline : '\n' ∉ body) (hseparator : ¬ defines <:+: body) (hbar : holdsBar body = false) :
    IsToken ('"' :: (body ++ ['"'])) where
  token := token?_double hne hquote []
  bar := holdsBar_cons (by decide) (holdsBar_concat (by decide) hbar)
  line hmem := by
    simp only [List.mem_cons, List.mem_append, List.not_mem_nil, or_false] at hmem
    rcases hmem with hmem | hmem | hmem
    · cases hmem
    · exact hline hmem
    · cases hmem
  separator hin := by
    have hquoted : '"' ∉ defines := by decide
    rcases infix_append_cons (a := []) hquoted hin with hin | hin
    · exact absurd hin (by decide)
    · rcases infix_append_cons hquoted hin with hin | hin
      · exact hseparator hin
      · exact absurd hin (by decide)

/-- A token that is written is read as itself. -/
theorem WrittenToken.IsWritten.isToken {t : WrittenToken} (h : t.IsWritten) : IsToken t.text := by
  cases t with
  | word cs => exact isToken_word h.1 h.2
  | character c => exact isToken_character h
  | phrase body => exact isToken_phrase h.1 h.2.1 h.2.2.1 h.2.2.2.1 h.2.2.2.2

/-! ## Lines -/

/-- The alternative as it is read. -/
def WrittenRule.piece : Option (List WrittenToken) → Piece
  | none => .comment "/* nil */".toList
  | some ts => .tokens (ts.map WrittenToken.text)

/-- The production as a row. -/
def WrittenRule.row (r : WrittenRule) : Row where
  front := r.name ++ [' ']
  gap := [' ']
  pieces := r.alternatives.map piece
  tail := []

/-- The line as one of a listing. -/
def WrittenLine.line : WrittenLine → Line
  | other text => .blank text
  | rule r => .row r.row

namespace WrittenRule

variable {r : WrittenRule}

theorem text_piece (a : Option (List WrittenToken)) : (piece a).text = alternativeText a := by
  cases a <;> rfl

theorem text_row (r : WrittenRule) : r.row.text = r.text := by
  have hbody : r.row.body = [' ', '|', ' '].intercalate (r.alternatives.map alternativeText) := by
    rw [Row.body, row, List.map_map]
    exact congrArg _ (List.map_congr_left fun a _ => text_piece a)
  rw [Row.text, hbody, row, text]
  simp only [List.append_assoc, List.append_nil]

theorem IsWritten.solid_name (h : r.IsWritten) : Solid r.name where
  ne_nil := h.name
  head := h.trimmed ▸ head_trim r.name
  last := h.trimmed ▸ last_trim r.name

theorem IsWritten.name_row (h : r.IsWritten) : r.row.name = r.name := by
  have hspace : AllBlank [' '] := by decide
  have hnil : AllBlank [] := List.forall_mem_nil _
  exact h.solid_name.trim_append hnil hspace

theorem isWritten_piece {a : Option (List WrittenToken)}
    (h : ∀ ts ∈ a, ts ≠ [] ∧ ∀ t ∈ ts, t.IsWritten) : (piece a).IsWritten := by
  cases a with
  | none => exact (by decide : (Piece.comment "/* nil */".toList).IsWritten)
  | some ts =>
    obtain ⟨hne, hts⟩ := h ts rfl
    refine ⟨by simpa using hne, fun t ht => ?_⟩
    obtain ⟨t, hmem, rfl⟩ := List.mem_map.1 ht
    exact (hts t hmem).isToken

theorem IsWritten.isWritten_row (h : r.IsWritten) : r.row.IsWritten where
  name := h.name_row ▸ h.name
  frontLine hmem := by
    rcases List.mem_append.1 hmem with hmem | hmem
    · exact h.line hmem
    · exact absurd hmem (by decide)
  frontSeparator hin := by
    rcases infix_append_cons (by decide) hin with hin | hin
    · exact h.separator hin
    · exact absurd hin (by decide)
  gap := (by decide : AllBlank [' '])
  gapLine := (by decide : '\n' ∉ [' '])
  tail := List.forall_mem_nil _
  tailLine := List.not_mem_nil
  ne_nil := by simpa [row] using h.ne_nil
  pieces p hp := by
    obtain ⟨a, ha, rfl⟩ := List.mem_map.1 hp
    exact isWritten_piece (h.alternatives a ha)

theorem read_piece (a : Option (List WrittenToken)) :
    (piece a).read = a.map fun ts => ts.map fun t => String.ofList t.text := by
  cases a with
  | none => rfl
  | some ts => exact congrArg some (List.map_map ..)

/-- What is written is read. -/
theorem IsWritten.definition_row (h : r.IsWritten) : r.row.definition = r.definition := by
  have hread : r.row.pieces.map Piece.read =
      r.alternatives.map fun a => a.map fun ts => ts.map fun t => String.ofList t.text := by
    rw [row, List.map_map]
    exact List.map_congr_left fun a _ => read_piece a
  have hchoices : (r.row.pieces.map Piece.read).filterMap id =
      (r.alternatives.filterMap id).map fun ts => ts.map fun t => String.ofList t.text := by
    rw [hread, List.filterMap_map, List.map_filterMap]
    rfl
  have hoptional : (r.row.pieces.map Piece.read).any Option.isNone =
      r.alternatives.any Option.isNone := by
    rw [hread, List.any_map]
    congr 1
    funext a
    cases a <;> rfl
  rw [Row.definition, h.name_row, Row.production, hchoices, hoptional, definition]

end WrittenRule

/-! ## Reading back -/

variable {lines : List WrittenLine}

theorem WrittenLine.IsWritten.isLegible {l : WrittenLine} (h : l.IsWritten) : l.line.IsLegible := by
  cases l with
  | other text => exact h
  | rule r => exact WrittenRule.IsWritten.isWritten_row h

theorem WrittenLine.text_line (l : WrittenLine) : l.line.text = l.text := by
  cases l with
  | other text => rfl
  | rule r => exact r.text_row

theorem listing_lines (lines : List WrittenLine) :
    String.ofList (listing (lines.map WrittenLine.line)) = writtenText lines := by
  rw [listing, List.map_map, writtenText]
  congr 2
  exact List.map_congr_left fun l _ => l.text_line

theorem map_definition_rowsOf (h : ∀ l ∈ lines, l.IsWritten) :
    (rowsOf (lines.map WrittenLine.line)).map Row.definition = writtenDefinitions lines := by
  induction lines with
  | nil => rfl
  | cons l lines ih =>
    have hlines := ih fun l' hl' => h l' (List.mem_cons_of_mem _ hl')
    cases l with
    | other text => exact hlines
    | rule r =>
      have hr : r.IsWritten := h (.rule r) List.mem_cons_self
      exact List.cons_eq_cons.2 ⟨hr.definition_row, hlines⟩

/-- A written grammar is read back: the names in order of first occurrence, each with the
alternatives of its last production, optional where one of its productions has the empty word. -/
theorem entries_parse_writtenText (lines : List WrittenLine) (h : ∀ l ∈ lines, l.IsWritten) :
    (Grammar.parse (writtenText lines)).entries =
      ((writtenDefinitions lines).map Prod.fst).eraseDups.map fun name =>
        (name, Grammar.merged (writtenDefinitions lines) name) := by
  have hlegible : ∀ l ∈ lines.map WrittenLine.line, l.IsLegible := by
    intro l hl
    obtain ⟨l', hl', rfl⟩ := List.mem_map.1 hl
    exact (h l' hl').isLegible
  rw [← listing_lines, parse_listing_of_isLegible hlegible, grammarOf, map_definition_rowsOf h,
    Grammar.entries_defineAll]

/-- A name that comes twice, the empty word, quotes of both kinds, and lines between the
productions. -/
def redefinedLines : List WrittenLine :=
  [.other "A grammar: of | things".toList,
    .rule ⟨"expr".toList, [some [.word "term".toList], none, some [.phrase "GROUP| BY".toList]]⟩,
    .other [],
    .rule ⟨"a term :".toList,
      [some [.word "x-1@".toList, .character '\''], some [.character '|']]⟩,
    .rule ⟨"expr".toList, [some [.word "term".toList, .phrase "a::b".toList]]⟩,
    .other []]

theorem entries_parse_redefinedLines :
    writtenText redefinedLines =
      "A grammar: of | things\nexpr ::= term | /* nil */ | \"GROUP| BY\"\n\n" ++
        "a term : ::= x-1@ ''' | '|'\nexpr ::= term \"a::b\"\n" ∧
    (Grammar.parse (writtenText redefinedLines)).entries =
      [("expr", ⟨[["term", "\"a::b\""]], true⟩),
        ("a term :", ⟨[["x-1@", "'''"], ["'|'"]], false⟩)] :=
  ⟨by decide, (entries_parse_writtenText redefinedLines (by decide)).trans (by decide)⟩

end CqlGlue.Listing
