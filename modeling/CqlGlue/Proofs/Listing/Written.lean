import CqlGlue.Proofs.Listing.Alternatives
import CqlGlue.Proofs.Listing.Definitions
import CqlGlue.Proofs.Listing.Separator

/-!
# Reading back a listing

A listing with one production on a line is read as these productions. The name stands at the
start of the line, in front of the only separator; blanks around the separator and at the end of
the line change nothing, nor do lines without the separator.

## Main definitions
* `Row` is a line that defines a production, `Line` a line of a listing.
* `listing` is the text.
* `Row.production` is what a row stands for, `grammarOf` what rows stand for.

## Main statements
* `parse_listing` reads back a listing, `parse_listing_of_isLegible` one with other lines in it.
-/

namespace CqlGlue.Listing

open Text

/-- A line that defines a production: a name, the separator and alternatives. -/
structure Row where
  /-- What stands in front of the separator. -/
  front : List Char
  /-- What stands between the separator and the alternatives. -/
  gap : List Char
  pieces : List Piece
  /-- What stands behind the alternatives. -/
  tail : List Char

namespace Row

/-- The alternatives as they are written, with a bar between two of them. -/
def body (r : Row) : List Char := [' ', '|', ' '].intercalate (r.pieces.map Piece.text)

/-- The line as it is written. -/
def text (r : Row) : List Char := r.front ++ defines ++ (r.gap ++ r.body ++ r.tail)

/-- The name that is defined. -/
def name (r : Row) : List Char := trim r.front

/-- The production that is defined. -/
def production (r : Row) : Production where
  choices := (r.pieces.map Piece.read).filterMap id
  optional := (r.pieces.map Piece.read).any Option.isNone

/-- The row can be read back: it is a single line with a single separator, a name, and
alternatives. -/
structure IsWritten (r : Row) : Prop where
  name : r.name ≠ []
  frontLine : '\n' ∉ r.front
  frontSeparator : ¬ defines <:+: r.front
  gap : AllBlank r.gap
  gapLine : '\n' ∉ r.gap
  tail : AllBlank r.tail
  tailLine : '\n' ∉ r.tail
  ne_nil : r.pieces ≠ []
  pieces : ∀ p ∈ r.pieces, p.IsWritten

instance (r : Row) : Decidable r.IsWritten :=
  decidable_of_iff (r.name ≠ [] ∧ ('\n' ∉ r.front ∧ ¬ defines <:+: r.front) ∧
      (AllBlank r.gap ∧ '\n' ∉ r.gap) ∧ (AllBlank r.tail ∧ '\n' ∉ r.tail) ∧
      r.pieces ≠ [] ∧ ∀ p ∈ r.pieces, p.IsWritten)
    ⟨fun ⟨hname, hfront, hgap, htail, hne, hpieces⟩ =>
      ⟨hname, hfront.1, hfront.2, hgap.1, hgap.2, htail.1, htail.2, hne, hpieces⟩,
      fun h => ⟨h.name, ⟨h.frontLine, h.frontSeparator⟩, ⟨h.gap, h.gapLine⟩,
        ⟨h.tail, h.tailLine⟩, h.ne_nil, h.pieces⟩⟩

end Row

/-- The tokens of an alternative; a comment has none. -/
def Piece.mentioned : Piece → List (List Char)
  | comment _ => []
  | tokens ts => ts

/-- The tokens of all alternatives. -/
def mentionedTokens (rows : List Row) : List (List Char) :=
  rows.flatMap fun r => r.pieces.flatMap Piece.mentioned

/-- A line of a listing. -/
inductive Line where
  | blank (text : List Char)
  | row (r : Row)

/-- The line as it is written. -/
def Line.text : Line → List Char
  | blank text => text
  | row r => r.text

/-- The line can be read back. -/
def Line.IsWritten : Line → Prop
  | blank text => AllBlank text ∧ '\n' ∉ text
  | row r => r.IsWritten

instance : (l : Line) → Decidable l.IsWritten
  | .blank _ => inferInstanceAs (Decidable (_ ∧ _))
  | .row r => inferInstanceAs (Decidable r.IsWritten)

/-- The line is a row that can be read back, or a text that defines nothing, blank or not. -/
def Line.IsLegible : Line → Prop
  | blank text => '\n' ∉ text ∧ ¬ defines <:+: text
  | row r => r.IsWritten

/-- The row on the line, unless it is blank. -/
def Line.row? : Line → Option Row
  | blank _ => none
  | row r => some r

/-- The rows of a listing. -/
def rowsOf (lines : List Line) : List Row := lines.filterMap Line.row?

theorem rowsOf_cons (l : Line) (lines : List Line) :
    rowsOf (l :: lines) = l.row?.toList ++ rowsOf lines := by
  cases l <;> rfl

/-- The text of a listing. -/
def listing (lines : List Line) : List Char := ['\n'].intercalate (lines.map Line.text)

/-! ## Rows -/

theorem not_mem_defines_of_mem_bar {c : Char} (h : c ∈ [' ', '|', ' ']) : c ∉ defines := by
  simp only [List.mem_cons, List.not_mem_nil, or_false] at h
  rcases h with rfl | rfl | rfl <;> decide

namespace Row.IsWritten

variable {r : Row} (h : r.IsWritten)
include h

theorem solid_body : Solid r.body := solid_pieces h.ne_nil h.pieces

theorem body_line_separator : '\n' ∉ r.body ∧ ¬ defines <:+: r.body := by
  refine intercalate_induction (P := fun cs => '\n' ∉ cs ∧ ¬ defines <:+: cs) ?_
    (by simpa using h.ne_nil) ?_
  · rintro a b ⟨ha, ha'⟩ ⟨hb, hb'⟩
    constructor
    · simp [ha, hb]
    · exact not_infix_append_append (List.cons_ne_nil _ _)
        (fun _ hc => not_mem_defines_of_mem_bar hc) ha' hb'
  · intro text htext
    obtain ⟨p, hp, rfl⟩ := List.mem_map.1 htext
    have hpiece := (h.pieces p hp).isPiece
    exact ⟨hpiece.line, hpiece.separator⟩

/-- What stands behind the separator holds no other one. -/
theorem rest_separator : ¬ defines <:+: r.gap ++ r.body ++ r.tail := by
  rw [infix_append_blank h.tail, infix_blank_append h.gap]
  exact h.body_line_separator.2

theorem rest_line : '\n' ∉ r.gap ++ r.body ++ r.tail := by
  simp [h.gapLine, h.body_line_separator.1, h.tailLine]

theorem text_line : '\n' ∉ r.text := by
  have hdefines : '\n' ∉ defines := by decide
  simp only [text, List.mem_append, not_or]
  have := h.rest_line
  simp only [List.mem_append, not_or] at this
  exact ⟨⟨h.frontLine, hdefines⟩, this⟩

theorem trimLeft_front_ne_nil : trimLeft r.front ≠ [] := by
  intro hnil
  apply h.name
  rw [Row.name, trim, hnil]
  rfl

theorem trimLeft_text_append (rest : List Char) :
    trimLeft (r.text ++ rest) =
      trimLeft r.front ++ defines ++ (r.gap ++ r.body ++ r.tail ++ rest) := by
  rw [text, List.append_assoc, List.append_assoc,
    trimLeft_append_of_ne_nil h.trimLeft_front_ne_nil]
  simp only [List.append_assoc]

theorem trimLeft_front_separator : ¬ defines <:+: trimLeft r.front :=
  fun hin => h.frontSeparator (hin.trans (List.dropWhile_suffix _).isInfix)

end Row.IsWritten

/-! ## Lines -/

/-- The lines that follow a line, each with its line end in front. -/
def restOf (lines : List Line) : List Char := lines.flatMap fun l => '\n' :: l.text

theorem listing_cons (l : Line) (lines : List Line) :
    listing (l :: lines) = l.text ++ restOf lines := by
  induction lines generalizing l with
  | nil =>
    rw [listing, List.map_singleton, List.intercalate_singleton]
    exact (List.append_nil _).symm
  | cons l' lines ih =>
    have hrest := ih l'
    rw [listing] at hrest ⊢
    rw [List.map_cons, List.map_cons, List.intercalate_cons_cons, ← List.map_cons, hrest,
      List.append_assoc]
    rfl

theorem Line.IsWritten.isLegible {l : Line} (h : l.IsWritten) : l.IsLegible := by
  cases l with
  | blank text =>
    exact ⟨h.2, not_infix_of_allBlank h.1⟩
  | row r => exact h

theorem Line.IsLegible.text_line {l : Line} (h : l.IsLegible) : '\n' ∉ l.text := by
  cases l with
  | blank text => exact h.1
  | row r => exact Row.IsWritten.text_line h

theorem head_restOf (lines : List Line) : ∀ c ∈ (restOf lines).head?, c = '\n' := by
  cases lines with
  | nil => simp [restOf]
  | cons l lines => simp [restOf]

theorem lineOf_append_restOf {cs : List Char} (h : '\n' ∉ cs) (lines : List Line) :
    lineOf (cs ++ restOf lines) = cs ∧ afterLine (cs ++ restOf lines) = restOf lines :=
  lineOf_append h (head_restOf lines)

/-- A text that does not begin with the separator does not with further lines behind it. -/
theorem dropText?_append_restOf {cs : List Char} (h : ¬ defines <+: cs) (lines : List Line) :
    dropText? defines (cs ++ restOf lines) = none := by
  rw [dropText?_line_append (head_restOf lines), dropText?_eq_none_iff.2 h]
  rfl

/-- No line of a listing begins with the separator. -/
theorem dropText?_restOf {lines : List Line} (h : ∀ l ∈ lines, l.IsLegible) :
    dropText? defines (trimLeft (restOf lines)) = none := by
  induction lines with
  | nil => rfl
  | cons l lines ih =>
    have hl := h l List.mem_cons_self
    have hblank : AllBlank ['\n'] := by decide
    have hnewline : trimLeft (restOf (l :: lines)) = trimLeft (l.text ++ restOf lines) :=
      trimLeft_blank_append hblank _
    rw [hnewline]
    cases l with
    | blank text =>
      have hrest := ih fun l hl => h l (List.mem_cons_of_mem _ hl)
      obtain ⟨blanks, hblanks, htext⟩ := exists_blank_append text
      rw [Line.text]
      by_cases htrim : trimLeft text = []
      · rw [htext, htrim, List.append_nil, trimLeft_blank_append hblanks]
        exact hrest
      · rw [trimLeft_append_of_ne_nil htrim]
        have hstart : ¬ defines <+: trimLeft text := fun hin =>
          hl.2 (hin.isInfix.trans (List.dropWhile_suffix _).isInfix)
        exact dropText?_append_restOf hstart lines
    | row r =>
      have hr : r.IsWritten := hl
      rw [Line.text, hr.trimLeft_text_append]
      cases hfront : trimLeft r.front with
      | nil => exact absurd hfront hr.trimLeft_front_ne_nil
      | cons c front => exact dropText?_defines_append (hfront ▸ hr.trimLeft_front_separator)

/-! ## Definitions -/

theorem splitDefinition_append_restOf {cs : List Char} {lines : List Line} (hcs : '\n' ∉ cs)
    (h : ∀ l ∈ lines, l.IsLegible) :
    splitDefinition (cs ++ restOf lines) =
      (splitLast defines cs).map fun p => (p.1, p.2 ++ restOf lines) := by
  obtain ⟨hline, hafter⟩ := lineOf_append_restOf hcs lines
  rw [splitDefinition, hline, hafter, dropText?_restOf h]

/-- A line that defines nothing is passed over. -/
theorem definitions_append_restOf_of_none {cs : List Char} {lines : List Line} (hcs : '\n' ∉ cs)
    (hnone : splitLast defines cs = none) (h : ∀ l ∈ lines, l.IsLegible) :
    definitions (cs ++ restOf lines) = definitions (restOf lines).tail := by
  have hsplit := splitDefinition_append_restOf hcs h
  rw [hnone, Option.map_none] at hsplit
  rw [definitions_of_none hsplit, (lineOf_append_restOf hcs lines).2]

theorem definitions_restOf {lines : List Line} (h : ∀ l ∈ lines, l.IsLegible) :
    definitions (restOf lines) = definitions (restOf lines).tail := by
  cases lines with
  | nil => rfl
  | cons l lines =>
    have hsplit : splitDefinition (restOf (l :: lines)) = none := by
      rw [← List.nil_append (restOf (l :: lines)), splitDefinition_append_restOf (by simp) h]
      rfl
    rw [definitions_of_none hsplit]
    rfl

/-- What a line adds to the definitions of the lines that follow it. -/
theorem definitions_line {l : Line} {lines : List Line} (hl : l.IsLegible)
    (h : ∀ l ∈ lines, l.IsLegible) :
    definitions (l.text ++ restOf lines) =
      (l.row?.toList.map fun r => (r.front, r.body ++ r.tail)) ++ definitions (restOf lines) := by
  cases l with
  | blank text =>
    rw [Line.text, definitions_append_restOf_of_none hl.1 (splitLast_eq_none_iff.2 hl.2) h,
      definitions_restOf h]
    rfl
  | row r =>
    have hr : r.IsWritten := hl
    have hsplit : splitDefinition (r.text ++ restOf lines) =
        some (r.front, r.gap ++ r.body ++ r.tail ++ restOf lines) := by
      rw [splitDefinition_append_restOf hr.text_line h, Row.text,
        splitLast_defines hr.rest_separator, Option.map_some]
    have htrim : trimLeft (r.gap ++ r.body ++ r.tail ++ restOf lines) =
        r.body ++ r.tail ++ restOf lines := by
      rw [List.append_assoc, List.append_assoc, trimLeft_blank_append hr.gap,
        hr.solid_body.trimLeft_append, List.append_assoc]
    have hline : '\n' ∉ r.body ++ r.tail := by
      simp [hr.body_line_separator.1, hr.tailLine]
    obtain ⟨hlineOf, hafter⟩ := lineOf_append_restOf hline lines
    rw [Line.text, definitions_of_some hsplit, htrim, hlineOf, hafter]
    rfl

/-- The definitions of a listing are its rows. -/
theorem definitions_listing {lines : List Line} (h : ∀ l ∈ lines, l.IsLegible) :
    definitions (listing lines) = (rowsOf lines).map fun r => (r.front, r.body ++ r.tail) := by
  have hrest : definitions (restOf lines) =
      (rowsOf lines).map fun r => (r.front, r.body ++ r.tail) := by
    induction lines with
    | nil => exact definitions_nil
    | cons l lines ih =>
      have hlines : ∀ l ∈ lines, l.IsLegible := fun l hl => h l (List.mem_cons_of_mem _ hl)
      have htail : (restOf (l :: lines)).tail = l.text ++ restOf lines := rfl
      rw [definitions_restOf h, htail, definitions_line (h l List.mem_cons_self) hlines,
        ih hlines, rowsOf_cons, List.map_append]
  cases lines with
  | nil => exact hrest
  | cons l lines =>
    rw [← hrest, definitions_restOf h, listing_cons]
    rfl

/-! ## Reading back -/

theorem Row.IsWritten.readProduction_eq {r : Row} (h : r.IsWritten) :
    readProduction (r.body ++ r.tail) = r.production := by
  have hpieces := map_readPiece_alternatives h.ne_nil h.pieces h.tail
  have hfilter : ((r.pieces.map Piece.read).filterMap id).filter (!·.isEmpty) =
      (r.pieces.map Piece.read).filterMap id := by
    apply List.filter_eq_self.2
    intro choice hchoice
    obtain ⟨read, hread, hsome⟩ := List.mem_filterMap.1 hchoice
    obtain ⟨p, hp, rfl⟩ := List.mem_map.1 hread
    cases p with
    | comment text => cases hsome
    | tokens ts =>
      cases hsome
      have hne := (h.pieces _ hp).1
      simpa using hne
  rw [Listing.readProduction_eq, Row.body, hpieces, hfilter]
  rfl

/-- The name and the production that a row defines. -/
def Row.definition (r : Row) : String × Production := (String.ofList r.name, r.production)

/-- The productions that rows define. -/
def grammarOf (rows : List Row) : Grammar :=
  Grammar.defineAll Table.empty (rows.map Row.definition)

theorem filter_definition {rows : List Row} {word : List Char} :
    (rows.map Row.definition).filter (·.1 == String.ofList word) =
      (rows.filter (·.name == word)).map Row.definition := by
  rw [List.filter_map]
  congr 1
  apply List.filter_congr
  intro r _
  rw [Bool.eq_iff_iff]
  simp [Row.definition, String.ofList_inj]

/-- A name that one row defines has the production of this row. -/
theorem get?_grammarOf_of_filter {rows : List Row} {r : Row} {word : List Char}
    (h : rows.filter (·.name == word) = [r]) :
    (grammarOf rows).get? (String.ofList word) = some r.production := by
  have hdefinition : (rows.map Row.definition).filter (·.1 == String.ofList word) =
      [r.definition] := by
    rw [filter_definition, h, List.map_singleton]
  exact Grammar.get?_defineAll_of_filter (g := Table.empty) List.not_mem_nil hdefinition

theorem mem_keys_grammarOf {rows : List Row} {name : String} :
    name ∈ (grammarOf rows).keys ↔ ∃ r ∈ rows, String.ofList r.name = name := by
  rw [grammarOf, Grammar.mem_keys_defineAll]
  constructor
  · rintro (h | ⟨d, hd, rfl⟩)
    · exact absurd h List.not_mem_nil
    · obtain ⟨r, hr, rfl⟩ := List.mem_map.1 hd
      exact ⟨r, hr, rfl⟩
  · rintro ⟨r, hr, rfl⟩
    exact .inr ⟨r.definition, List.mem_map_of_mem hr, rfl⟩

/-- A listing is read as its rows, and lines that define nothing are passed over. -/
theorem parse_listing_of_isLegible {lines : List Line} (h : ∀ l ∈ lines, l.IsLegible) :
    Grammar.parse (String.ofList (listing lines)) = grammarOf (rowsOf lines) := by
  have hread : readDefinitions (listing lines) = (rowsOf lines).map Row.definition := by
    rw [readDefinitions, definitions_listing h, List.map_map]
    apply List.map_congr_left
    intro r hr
    obtain ⟨l, hl, hrow⟩ := List.mem_filterMap.1 hr
    have hwritten : r.IsWritten := by
      cases l with
      | blank text => cases hrow
      | row r' =>
        cases hrow
        exact h _ hl
    rw [Function.comp_apply, hwritten.readProduction_eq]
    rfl
  rw [Grammar.parse, String.toList_ofList, hread]
  rfl

/-- A listing is read as its rows. -/
theorem parse_listing {lines : List Line} (h : ∀ l ∈ lines, l.IsWritten) :
    Grammar.parse (String.ofList (listing lines)) = grammarOf (rowsOf lines) :=
  parse_listing_of_isLegible fun l hl => (h l hl).isLegible

/-- Every token of the grammar stands in a row. -/
theorem mem_mentionedTokens_of_mem_grammarOf {rows : List Row} {e : String × Production}
    (he : e ∈ (grammarOf rows).entries) {choice : List String} (hchoice : choice ∈ e.2.choices)
    {t : String} (ht : t ∈ choice) : t.toList ∈ mentionedTokens rows := by
  refine forall_mem_defineAll
    (P := fun choices => ∀ choice ∈ choices, ∀ t ∈ choice, t.toList ∈ mentionedTokens rows)
    ?_ ?_ e he choice hchoice t ht
  · intro e he
    exact absurd he List.not_mem_nil
  · intro d hd choice hchoice t ht
    obtain ⟨r, hr, rfl⟩ := List.mem_map.1 hd
    obtain ⟨read, hread, hsome⟩ := List.mem_filterMap.1 hchoice
    obtain ⟨p, hp, rfl⟩ := List.mem_map.1 hread
    cases p with
    | comment text => cases hsome
    | tokens ts =>
      cases hsome
      obtain ⟨u, hu, rfl⟩ := List.mem_map.1 ht
      rw [String.toList_ofList]
      exact List.mem_flatMap.2 ⟨r, hr, List.mem_flatMap.2 ⟨_, hp, hu⟩⟩

end CqlGlue.Listing
