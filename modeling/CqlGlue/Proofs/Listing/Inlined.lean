import CqlGlue.Proofs.Listing.Substitution

/-!
# Inlining a listing

Inlining works on lines of text. Where the words to inline are defined once each, occur elsewhere
only as complete tokens, and their alternatives can be put there, what comes out is again a
listing: the rows that do not define a word, with the alternatives of the definitions put for the
words. Words that are defined by single alternatives without words in them are all substituted at
once.

## Main definitions
* `StandWhole` says that words stand as complete tokens, `Expandable` that they can be substituted.
* `expandedRows` are the rows that come out, `expanded` is the listing.
* `Inlinable` says that words are defined by single alternatives that mention none of them,
  `inlinedRows` and `inlined` are what comes out then.

## Main statements
* `Expandable.run_listing` says that inlining gives the listing that is expected and does not fail.
* `expanded_eq_inlined` says that words defined by single alternatives are substituted at once, and
  `run_listing` what inlining gives for them.
* `isWritten_inlined` says that what comes out can be read back.
-/

namespace CqlGlue.Listing

open Text Inliner

/-- The alternatives of the row that defines the word. -/
def bodyPieces (rows : List Row) (word : List Char) : List Piece :=
  ((rows.find? (·.name == word)).map Row.pieces).getD []

/-- The row without blanks at either end of the line. -/
def Row.trimmed (r : Row) : Row := { r with front := trimLeft r.front, tail := [] }

/-- The row that comes out for a row, where alternatives are put for one word after the other. -/
def Row.expanded (words : List (List Char)) (rows : List Row) (r : Row) : Row :=
  r.trimmed.putAll (bodyPieces rows) words

/-- The rows that come out: those that define none of the words. -/
def expandedRows (words : List (List Char)) (lines : List Line) : List Row :=
  ((rowsOf lines).filter fun r => !words.contains r.name).map (Row.expanded words (rowsOf lines))

/-- The listing that comes out, with a line end behind every row. -/
def expanded (words : List (List Char)) (lines : List Line) : List Line :=
  (expandedRows words lines).map Line.row ++ [.blank []]

/-- Apart from the names of the rows that define them, the words stand only behind the separator and
only as complete tokens. -/
structure StandWhole (words : List (List Char)) (lines : List Line) : Prop where
  word : ∀ w ∈ words, IsWord w
  written : ∀ l ∈ lines, l.IsWritten
  front : ∀ r ∈ rowsOf lines, r.name ∉ words → ∀ w ∈ words, hasWord w r.front = false
  whole : ∀ r ∈ rowsOf lines, ∀ p ∈ r.pieces, ∀ w ∈ words, p.KeepsWhole w

/-- The words can be substituted in the listing. Each is defined once, otherwise they stand as
complete tokens, and their alternatives can be put there. -/
structure Expandable (words : List (List Char)) (lines : List Line) : Prop
    extends StandWhole words lines where
  defined : ∀ w ∈ words, ∃ r, (rowsOf lines).filter (·.name == w) = [r]
  fits : ∀ r ∈ rowsOf lines, r.name ∉ words → ∀ p ∈ r.pieces,
    Fits words (bodyPieces (rowsOf lines)) p

/-! ## Trimmed lines -/

theorem Row.text_trimmed (r : Row) :
    r.trimmed.text = trimLeft r.front ++ defines ++ (r.gap ++ r.body) :=
  congrArg _ (List.append_nil _)

theorem Row.IsWritten.trim_text {r : Row} (h : r.IsWritten) : trim r.text = r.trimmed.text := by
  have hleft := h.trimLeft_text_append []
  rw [List.append_nil, List.append_nil] at hleft
  have hlast : ∀ c ∈ (trimLeft r.front ++ defines ++ (r.gap ++ r.body)).getLast?,
      isBlank c = false := by
    intro c hc
    have hbody := List.getLast?_eq_some_getLast h.solid_body.ne_nil
    rw [← List.append_assoc, List.getLast?_append, hbody, Option.some_or] at hc
    exact h.solid_body.last c (hbody ▸ hc)
  rw [trim, hleft, ← List.append_assoc (trimLeft r.front ++ defines),
    trimRight_append_blank h.tail, trimRight_eq_self hlast, Row.text_trimmed]

theorem Row.IsWritten.trimmed {r : Row} (h : r.IsWritten) : r.trimmed.IsWritten where
  name := by
    rw [Row.name, Row.trimmed, trim_trimLeft]
    exact h.name
  frontLine hmem := h.frontLine ((List.dropWhile_suffix _).subset hmem)
  frontSeparator := h.trimLeft_front_separator
  gap := h.gap
  gapLine := h.gapLine
  tail _ hc := nomatch hc
  tailLine hmem := nomatch hmem
  ne_nil := h.ne_nil
  pieces := h.pieces

theorem Row.IsWritten.splitLine_trim {r : Row} (h : r.IsWritten) :
    splitLine (trim r.text) = some (r.name, r.body) := by
  have hnil : AllBlank [] := fun _ hc => nomatch hc
  have hbody := h.solid_body.trim_append h.gap hnil
  rw [List.append_nil] at hbody
  rw [h.trim_text, Row.text_trimmed, splitLine, splitFirst_defines h.trimLeft_front_separator,
    Option.map_some, trim_trimLeft, hbody]
  rfl

theorem splitLine_trim {l : Line} (h : l.IsWritten) :
    splitLine (trim l.text) = l.row?.map fun r => (r.name, r.body) := by
  cases l with
  | blank text =>
    rw [Line.text, trim_of_allBlank h.1]
    rfl
  | row r => exact Row.IsWritten.splitLine_trim h

/-! ## Bodies of words -/

theorem filterMap_splitLine_trim {lines : List Line} (h : ∀ l ∈ lines, l.IsWritten) :
    (lines.map fun l => trim l.text).filterMap splitLine =
      (rowsOf lines).map fun r => (r.name, r.body) := by
  induction lines with
  | nil => rfl
  | cons l lines ih =>
    rw [List.map_cons, List.filterMap_cons, splitLine_trim (h l List.mem_cons_self),
      ih fun l' hl' => h l' (List.mem_cons_of_mem _ hl'), rowsOf_cons]
    cases l <;> rfl

theorem lookup_reverse_of_filter {rows : List Row} {r : Row} {word : List Char}
    (h : rows.filter (·.name == word) = [r]) :
    (rows.map fun r => (r.name, r.body)).reverse.lookup word = some r.body := by
  obtain ⟨before, after, rfl, -, hr, hafter⟩ := List.filter_eq_cons_iff.1 h
  obtain rfl : r.name = word := by simpa using hr
  refine List.lookup_eq_some_iff.2
    ⟨(after.map fun r => (r.name, r.body)).reverse,
      (before.map fun r => (r.name, r.body)).reverse, ?_, ?_⟩
  · simp
  · intro e he
    obtain ⟨r', hr', rfl⟩ := List.mem_map.1 (List.mem_reverse.1 he)
    have hne := List.filter_eq_nil_iff.1 hafter r' hr'
    rw [bne_iff_ne]
    rintro hname
    exact hne (by simp [hname])

theorem bodyPieces_of_filter {rows : List Row} {r : Row} {word : List Char}
    (h : rows.filter (·.name == word) = [r]) : bodyPieces rows word = r.pieces := by
  rw [bodyPieces, ← List.head?_filter, h]
  rfl

theorem isWritten_of_mem_rowsOf {lines : List Line} (h : ∀ l ∈ lines, l.IsWritten) {r : Row}
    (hr : r ∈ rowsOf lines) : r.IsWritten := by
  obtain ⟨l, hl, hrow⟩ := List.mem_filterMap.1 hr
  have hwritten := h l hl
  cases l with
  | blank text => cases hrow
  | row r' =>
    cases hrow
    exact hwritten

/-! ## One line -/

section

variable {words lines : List (List Char)} {line key value : List Char}

/-- A line that defines a word is dropped. -/
theorem value_inlineLine_of_mem (hsplit : splitLine line = some (key, value)) (hkey : key ∈ words) :
    (inlineLine ⟨words⟩ lines line).value = .ok none := by
  rw [inlineLine, hsplit]
  dsimp only
  rw [if_pos (List.contains_iff_mem.2 hkey)]

/-- In any other line the words are substituted when its right-hand side mentions one. -/
theorem value_inlineLine_of_kept (hsplit : splitLine line = some (key, value))
    (hkey : key ∉ words) :
    (inlineLine ⟨words⟩ lines line).value =
      if words.any (hasWord · value) then
        (substitute lines (String.ofList key) words line).value.map some
      else .ok (some line) := by
  rw [inlineLine, hsplit]
  dsimp only
  rw [if_neg fun hmem => hkey (List.contains_iff_mem.1 hmem)]
  split <;> rfl

/-- That nothing is done when the right-hand side mentions no word makes no difference where the
left-hand side mentions none either. -/
theorem value_inlineLine_of_not_mem (hsplit : splitLine line = some (key, value))
    (hkey : key ∉ words)
    (hline : (∀ w ∈ words, hasWord w value = false) → ∀ w ∈ words, hasWord w line = false) :
    (inlineLine ⟨words⟩ lines line).value =
      (substitute lines (String.ofList key) words line).value.map some := by
  rw [value_inlineLine_of_kept hsplit hkey]
  split
  · rfl
  · rename_i hany
    have hvalue : ∀ w ∈ words, hasWord w value = false := fun w hw =>
      Bool.eq_false_iff.2 fun hmem => hany (List.any_eq_true.2 ⟨w, hw, hmem⟩)
    rw [value_substitute_of_forall (hline hvalue)]
    rfl

end

/-! ## Whole listings -/

/-- Lines with a line end behind each are a listing with a blank line at the end. -/
theorem listing_append_blank (rows : List Row) :
    listing (rows.map Line.row ++ [.blank []]) = (rows.map Row.text).flatMap (· ++ ['\n']) := by
  induction rows with
  | nil => rfl
  | cons r rows ih =>
    have hne : (rows.map Line.row ++ [Line.blank []]).map Line.text ≠ [] := by simp
    rw [listing, List.map_cons, List.cons_append, List.map_cons,
      List.intercalate_cons_of_ne_nil hne, ← listing, ih]
    rfl

theorem rowsOf_append_blank (rows : List Row) :
    rowsOf (rows.map Line.row ++ [.blank []]) = rows := by
  rw [rowsOf, List.filterMap_append, List.filterMap_map]
  exact (congrArg (· ++ []) List.filterMap_some).trans (List.append_nil _)

theorem linesOf_listing {lines : List Line} (hne : lines ≠ []) (h : ∀ l ∈ lines, l.IsWritten) :
    linesOf (listing lines) = lines.map fun l => trim l.text := by
  have hparts : ∀ part ∈ lines.map Line.text, '\n' ∉ part := by
    intro part hpart
    obtain ⟨l, hl, rfl⟩ := List.mem_map.1 hpart
    exact (h l hl).isLegible.text_line
  rw [linesOf, listing, splitChar_intercalate (by simpa using hne) hparts, List.map_map]
  rfl

theorem words_ofWords {words : List String} (h : ∀ w ∈ words, IsWord w.toList) :
    ofWords words = ⟨words.map String.toList⟩ := by
  have htrim : ∀ w ∈ words, trim w.toList = w.toList := by
    intro w hw
    have hvisible : ∀ c ∈ w.toList, isBlank c = false := by
      intro c hc
      apply Bool.eq_false_iff.2
      intro hblank
      have hchar := (h w hw).wordChars c hc
      rw [isWordChar_of_isBlank hblank] at hchar
      cases hchar
    exact trim_eq_self (fun c hc => hvisible c (List.mem_of_mem_head? hc))
      fun c hc => hvisible c (List.mem_of_mem_getLast? hc)
  rw [ofWords, List.map_congr_left htrim, List.filter_eq_self.2]
  intro w hw
  obtain ⟨w', hw', rfl⟩ := List.mem_map.1 hw
  have hne := (h w' hw').ne_nil
  simpa using hne

/-! ## Words put in order -/

theorem name_expanded (words : List (List Char)) (rows : List Row) (r : Row) :
    (r.expanded words rows).name = r.name := by
  rw [Row.expanded, Row.name_putAll]
  exact trim_trimLeft r.front

theorem rowsOf_expanded (words : List (List Char)) (lines : List Line) :
    rowsOf (expanded words lines) = expandedRows words lines :=
  rowsOf_append_blank _

namespace Expandable

variable {words : List (List Char)} {lines : List Line} (h : Expandable words lines)
include h

/-- The row that defines a word. -/
theorem exists_row {w : List Char} (hw : w ∈ words) :
    ∃ r ∈ rowsOf lines, r.name = w ∧ (rowsOf lines).filter (·.name == w) = [r] ∧
      bodyPieces (rowsOf lines) w = r.pieces := by
  obtain ⟨r, hfilter⟩ := h.defined w hw
  have hr : r ∈ (rowsOf lines).filter (·.name == w) := hfilter ▸ List.mem_singleton_self r
  rw [List.mem_filter, beq_iff_eq] at hr
  exact ⟨r, hr.1, hr.2, hfilter, bodyPieces_of_filter hfilter⟩

theorem hasBodies :
    HasBodies (lines.map fun l => trim l.text) words (bodyPieces (rowsOf lines)) where
  word := h.word
  defined w hw := by
    obtain ⟨r, -, -, hfilter, hpieces⟩ := h.exists_row hw
    rw [bodyOf?, filterMap_splitLine_trim h.written, lookup_reverse_of_filter hfilter, hpieces,
      Row.body_eq]
  ne_nil w hw := by
    obtain ⟨r, hr, -, -, hpieces⟩ := h.exists_row hw
    exact hpieces ▸ (isWritten_of_mem_rowsOf h.written hr).ne_nil
  written w hw := by
    obtain ⟨r, hr, -, -, hpieces⟩ := h.exists_row hw
    exact hpieces ▸ (isWritten_of_mem_rowsOf h.written hr).pieces
  whole w hw := by
    obtain ⟨r, hr, -, -, hpieces⟩ := h.exists_row hw
    exact hpieces ▸ h.whole r hr

theorem isReady_trimmed {r : Row} (hr : r ∈ rowsOf lines) (hname : r.name ∉ words) :
    r.trimmed.IsReady words (bodyPieces (rowsOf lines)) where
  written := (isWritten_of_mem_rowsOf h.written hr).trimmed
  tail := rfl
  front w hw := by
    have hfront := h.front r hr hname w hw
    obtain ⟨blanks, hblanks, hsplit⟩ := exists_blank_append r.front
    by_cases hnil : blanks = []
    · rw [hnil, List.nil_append] at hsplit
      rwa [Row.trimmed, ← hsplit]
    · rw [hsplit, ← List.nil_append (blanks ++ trimLeft r.front), ← List.append_assoc,
        hasWord_append_append (h.word w hw) (fun c hc => isWordChar_of_isBlank (hblanks c hc)) hnil,
        Bool.or_eq_false_iff] at hfront
      exact hfront.2
  whole := h.whole r hr
  fits := h.fits r hr hname

theorem isReady_expanded {r : Row} (hr : r ∈ rowsOf lines) (hname : r.name ∉ words) :
    (r.expanded words (rowsOf lines)).IsReady words (bodyPieces (rowsOf lines)) :=
  h.hasBodies.isReady_putAll (h.isReady_trimmed hr hname) fun _ hw => hw

theorem value_inlineLine {l : Line} (hl : l ∈ lines) :
    (inlineLine ⟨words⟩ (lines.map fun l => trim l.text) (trim l.text)).value =
      .ok ((l.row?.filter fun r => !words.contains r.name).map fun r =>
        (r.expanded words (rowsOf lines)).text) := by
  have hsplit := splitLine_trim (h.written l hl)
  cases l with
  | blank text =>
    rw [inlineLine, hsplit]
    rfl
  | row r =>
    have hr : r ∈ rowsOf lines := List.mem_filterMap.2 ⟨_, hl, rfl⟩
    have hwritten := isWritten_of_mem_rowsOf h.written hr
    by_cases hname : r.name ∈ words
    · rw [value_inlineLine_of_mem hsplit hname, Line.row?, Option.filter_some,
        List.contains_iff_mem.2 hname]
      rfl
    · have hready := h.isReady_trimmed hr hname
      have htrim : trim (Line.row r).text = r.trimmed.text := hwritten.trim_text
      have hsubst : (substitute (lines.map fun l => trim l.text) (String.ofList r.name) words
          r.trimmed.text).value = .ok (r.expanded words (rowsOf lines)).text :=
        h.hasBodies.value_substitute_text hready fun _ hw => hw
      rw [value_inlineLine_of_not_mem hsplit hname, htrim, hsubst, Line.row?, Option.filter_some,
        if_pos (by simpa using hname)]
      · rfl
      · intro hbody w hw
        rw [htrim, hasWord_text (r := r.trimmed) (h.word w hw) hwritten.gap rfl, hready.front w hw,
          Bool.false_or]
        exact hbody w hw

/-- What comes out for some of the lines. -/
theorem value_inlineLines {ls : List Line} (hls : ∀ l ∈ ls, l ∈ lines) :
    (inlineLines ⟨words⟩ (lines.map fun l => trim l.text) (ls.map fun l => trim l.text)).value =
      .ok ((((rowsOf ls).filter fun r => !words.contains r.name).map
        (Row.expanded words (rowsOf lines))).map Row.text) := by
  induction ls with
  | nil => rfl
  | cons l ls ih =>
    have hfirst := h.value_inlineLine (hls l List.mem_cons_self)
    have hothers := ih fun l' hl' => hls l' (List.mem_cons_of_mem _ hl')
    rw [List.map_cons, inlineLines, hfirst]
    dsimp only
    rw [hothers, rowsOf_cons]
    cases l with
    | blank text => rfl
    | row r =>
      rw [Line.row?, Option.toList_some, List.singleton_append, List.filter_cons,
        Option.filter_some]
      split <;> rfl

theorem isWritten_expanded : ∀ l ∈ expanded words lines, l.IsWritten := by
  intro l hl
  rcases List.mem_append.1 hl with hl | hl
  · obtain ⟨r, hr, rfl⟩ := List.mem_map.1 hl
    obtain ⟨r', hr', rfl⟩ := List.mem_map.1 hr
    obtain ⟨hmem, hname⟩ := List.mem_filter.1 hr'
    exact (h.isReady_expanded hmem (by simpa using hname)).written
  · obtain rfl := List.mem_singleton.1 hl
    exact ⟨(fun _ hc => nomatch hc), List.not_mem_nil⟩

omit h in
theorem run_listing_of_ne_nil {words : List String} (hne : lines ≠ [])
    (h : Expandable (words.map String.toList) lines) :
    ((ofWords words).run (String.ofList (listing lines))).value =
      .ok (String.ofList (listing (expanded (words.map String.toList) lines))) := by
  have hwords := words_ofWords fun w hw => h.word _ (List.mem_map_of_mem hw)
  have hlines := linesOf_listing hne h.written
  rw [run, String.toList_ofList, hwords, hlines]
  dsimp only
  rw [h.value_inlineLines fun _ hl => hl, expanded, listing_append_blank]
  rfl

omit h in
/-- Inlining gives the listing of the rows that remain, with alternatives put for the words. -/
theorem run_listing {words : List String} (h : Expandable (words.map String.toList) lines) :
    ((ofWords words).run (String.ofList (listing lines))).value =
      .ok (String.ofList (listing (expanded (words.map String.toList) lines))) := by
  cases lines with
  | nil =>
    -- The empty text has one line, a blank one.
    have hblank : Expandable (words.map String.toList) [.blank []] := {
      word := h.word
      written := by
        intro l hl
        rw [List.mem_singleton.1 hl]
        exact ⟨(fun _ hc => nomatch hc), List.not_mem_nil⟩
      defined := h.defined
      front := h.front
      whole := h.whole
      fits := h.fits }
    have hrun := run_listing_of_ne_nil (List.cons_ne_nil _ _) hblank
    exact hrun
  | cons l lines => exact run_listing_of_ne_nil (List.cons_ne_nil _ _) h

end Expandable

/-! ## Words defined by single alternatives -/

/-- The tokens of the first alternative of the row that defines the word. -/
def bodyTokens (rows : List Row) (word : List Char) : List (List Char) :=
  match (rows.find? (·.name == word)).bind (·.pieces.head?) with
  | some (.tokens ts) => ts
  | _ => []

/-- The row that comes out for a row. -/
def Row.inlined (words : List (List Char)) (rows : List Row) (r : Row) : Row :=
  r.trimmed.subst (expand words (bodyTokens rows))

/-- The rows that come out: those that define none of the words. -/
def inlinedRows (words : List (List Char)) (lines : List Line) : List Row :=
  ((rowsOf lines).filter fun r => !words.contains r.name).map (Row.inlined words (rowsOf lines))

/-- The listing that comes out, with a line end behind every row. -/
def inlined (words : List (List Char)) (lines : List Line) : List Line :=
  (inlinedRows words lines).map Line.row ++ [.blank []]

/-- The words can be inlined in the listing. Each is defined once, by a single alternative that
mentions none of them. Otherwise they stand only behind the separator and only as complete
tokens. -/
structure Inlinable (words : List (List Char)) (lines : List Line) : Prop where
  word : ∀ w ∈ words, IsWord w
  written : ∀ l ∈ lines, l.IsWritten
  defined : ∀ w ∈ words, ∃ r ts, (rowsOf lines).filter (·.name == w) = [r] ∧
    r.pieces = [.tokens ts] ∧ ∀ t ∈ ts, t ∉ words
  front : ∀ r ∈ rowsOf lines, r.name ∉ words → ∀ w ∈ words, hasWord w r.front = false
  whole : ∀ r ∈ rowsOf lines, ∀ p ∈ r.pieces, ∀ w ∈ words, p.KeepsWhole w

theorem bodyTokens_of_filter {rows : List Row} {r : Row} {word : List Char}
    {ts : List (List Char)} (h : rows.filter (·.name == word) = [r])
    (hpieces : r.pieces = [.tokens ts]) : bodyTokens rows word = ts := by
  rw [bodyTokens, ← List.head?_filter, h]
  simp [hpieces]

namespace Inlinable

variable {words : List (List Char)} {lines : List Line} (h : Inlinable words lines)
include h

/-- The row that defines a word. -/
theorem exists_row {w : List Char} (hw : w ∈ words) :
    ∃ r ∈ rowsOf lines, r.name = w ∧ (rowsOf lines).filter (·.name == w) = [r] ∧
      r.pieces = [.tokens (bodyTokens (rowsOf lines) w)] := by
  obtain ⟨r, ts, hfilter, hpieces, -⟩ := h.defined w hw
  have hr : r ∈ (rowsOf lines).filter (·.name == w) := hfilter ▸ List.mem_singleton_self r
  rw [List.mem_filter, beq_iff_eq] at hr
  refine ⟨r, hr.1, hr.2, hfilter, ?_⟩
  rw [bodyTokens_of_filter hfilter hpieces]
  exact hpieces

/-- A word is defined by a single alternative, in which there are no words. -/
theorem bodyPieces_eq {w : List Char} (hw : w ∈ words) :
    bodyPieces (rowsOf lines) w = [.tokens (bodyTokens (rowsOf lines) w)] ∧
      ∀ t ∈ bodyTokens (rowsOf lines) w, t ∉ words := by
  obtain ⟨r, ts, hfilter, hpieces, hfree⟩ := h.defined w hw
  rw [bodyPieces_of_filter hfilter, bodyTokens_of_filter hfilter hpieces]
  exact ⟨hpieces, hfree⟩

theorem expandable : Expandable words lines where
  word := h.word
  written := h.written
  defined w hw := by
    obtain ⟨r, -, hfilter, -⟩ := h.defined w hw
    exact ⟨r, hfilter⟩
  front := h.front
  whole := h.whole
  fits r _ _ p _ := by
    cases p with
    | comment text => exact .comment text
    | tokens ts =>
      refine .sequence fun w _ hw => ?_
      obtain ⟨hbody, hfree⟩ := h.bodyPieces_eq hw
      exact .intro hbody fun t ht hmem => absurd hmem (hfree t ht)

/-- Words that are defined by single alternatives are substituted at once. -/
theorem expanded_eq_inlined : expanded words lines = inlined words lines := by
  have hrow : ∀ r : Row, r.expanded words (rowsOf lines) = r.inlined words (rowsOf lines) :=
    fun r => putAll_eq_subst (fun w hw => (h.bodyPieces_eq hw).1)
      (fun w hw => (h.bodyPieces_eq hw).2) r.trimmed
  rw [expanded, expandedRows, funext hrow]
  rfl

/-! ## The listing that comes out -/

theorem isWritten_inlined : ∀ l ∈ inlined words lines, l.IsWritten :=
  h.expanded_eq_inlined ▸ h.expandable.isWritten_expanded

/-- Every token in a row stands in an alternative. -/
theorem isToken_of_mem {t : List Char} (ht : t ∈ mentionedTokens (rowsOf lines)) : IsToken t := by
  obtain ⟨r, hr, ht⟩ := List.mem_flatMap.1 ht
  obtain ⟨p, hp, ht⟩ := List.mem_flatMap.1 ht
  have hwritten := (isWritten_of_mem_rowsOf h.written hr).pieces p hp
  cases p with
  | comment text => exact absurd ht List.not_mem_nil
  | tokens ts => exact hwritten.2 t ht

/-- No token comes out that does not come in. -/
theorem mem_mentionedTokens_of_inlined {t : List Char}
    (ht : t ∈ mentionedTokens (inlinedRows words lines)) : t ∈ mentionedTokens (rowsOf lines) := by
  obtain ⟨r, hr, ht⟩ := List.mem_flatMap.1 ht
  obtain ⟨r, hr', rfl⟩ := List.mem_map.1 hr
  obtain ⟨p, hp, ht⟩ := List.mem_flatMap.1 ht
  obtain ⟨p, hp', rfl⟩ := List.mem_map.1 hp
  cases p with
  | comment text => exact absurd ht List.not_mem_nil
  | tokens ts =>
    obtain ⟨u, hu, ht⟩ := List.mem_flatMap.1 ht
    rw [expand] at ht
    split at ht
    · rename_i hword
      obtain ⟨r', hr', -, -, hpieces⟩ := h.exists_row hword
      have hmem : Piece.tokens (bodyTokens (rowsOf lines) u) ∈ r'.pieces :=
        hpieces ▸ List.mem_singleton_self _
      exact List.mem_flatMap.2 ⟨r', hr', List.mem_flatMap.2 ⟨_, hmem, ht⟩⟩
    · rw [List.mem_singleton.1 ht]
      exact List.mem_flatMap.2 ⟨r, (List.mem_filter.1 hr').1, List.mem_flatMap.2 ⟨_, hp', hu⟩⟩

end Inlinable

theorem name_inlined (words : List (List Char)) (rows : List Row) (r : Row) :
    (r.inlined words rows).name = r.name :=
  trim_trimLeft r.front

theorem rowsOf_inlined (words : List (List Char)) (lines : List Line) :
    rowsOf (inlined words lines) = inlinedRows words lines :=
  rowsOf_append_blank _

/-- Inlining gives the listing of the rows that remain, with the words substituted. -/
theorem run_listing {words : List String} {lines : List Line}
    (h : Inlinable (words.map String.toList) lines) :
    ((ofWords words).run (String.ofList (listing lines))).value =
      .ok (String.ofList (listing (inlined (words.map String.toList) lines))) := by
  rw [← h.expanded_eq_inlined]
  exact h.expandable.run_listing

end CqlGlue.Listing
