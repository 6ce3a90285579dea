import CqlGlue.Proofs.Listing.ExpandedLines

/-!
# Inlining again

Where definitions mention later words only and no left-hand side has a word in it, nothing is left
to be inlined in the lines that come out, so inlining again only trims them. They begin with a
visible character as the lines that came in do. They end with one unless what comes in at the end
of a line ends in a blank, which takes a word that is defined as the empty text.

## Main definitions
* `EndsVisible` are the texts that end with a visible character.
* `IsStable` says that a text is made of trimmed productions and that inlining leaves it alone.

## Main statements
* `endsVisible_expandFrom` says when an expansion ends with a visible character.
* `value_run_again` is inlining of what inlining gives.
* `isStable_iff` says when this changes nothing.
-/

namespace CqlGlue.Listing

open Text Inliner

/-! ## Ends of expansions -/

/-- A text that ends with a visible character. -/
def EndsVisible (cs : List Char) : Prop := ∃ c, cs.getLast? = some c ∧ isBlank c = false

theorem EndsVisible.append {a b : List Char} (h : EndsVisible b) : EndsVisible (a ++ b) := by
  obtain ⟨c, hlast, hc⟩ := h
  exact ⟨c, by rw [List.getLast?_append, hlast, Option.some_or], hc⟩

theorem endsVisible_trim {cs : List Char} (h : trim cs ≠ []) : EndsVisible (trim cs) :=
  ⟨(trim cs).getLast h, List.getLast?_eq_some_getLast h,
    last_trim cs _ (List.getLast?_eq_some_getLast h)⟩

section

variable {words : List (List Char)} {body? : List Char → Option (List Char)}

/-- Where the texts for words end with a visible character, so do expansions. -/
theorem endsVisible_expandFrom {k : Nat} {s : List Char}
    (hbodies : ∀ w ∈ words, ∀ body ∈ body? w, EndsVisible body) (hs : EndsVisible s) :
    EndsVisible (expandFrom words body? k s) := by
  obtain ⟨c, hlast, hc⟩ := hs
  have hne : s ≠ [] := by
    rintro rfl
    cases hlast
  obtain ⟨front, r, hruns, -, hr⟩ := exists_last_run hne
  have hself : EndsVisible r := ⟨c, hr ▸ hlast, hc⟩
  rw [expandFrom_eq, hruns, List.flatMap_append, List.flatMap_singleton]
  apply EndsVisible.append
  rw [expandRun]
  split
  · rename_i hcond
    split
    · rename_i body hbody
      have hmem : r ∈ words := List.idxOf_lt_length_iff.1 hcond.2
      exact endsVisible_expandFrom hbodies (hbodies r hmem body hbody)
    · exact hself
  · exact hself
termination_by words.length - k

end

/-! ## Lines that come out -/

section

variable {words lines : List (List Char)} {line left right : List Char}

/-- A line that is kept, cut at its first separator. -/
theorem exists_cut_of_mem_keptLines (h : line ∈ keptLines words lines) :
    ∃ left right, splitFirst defines line = some (left, right) ∧
      line = left ++ (defines ++ right) ∧ ¬ defines <:+: left ∧ trim left ∉ words := by
  obtain ⟨-, key, value, hsplit, hkey⟩ := mem_keptLines.1 h
  obtain ⟨⟨left, right⟩, hcut, heq⟩ := Option.map_eq_some_iff.1 hsplit
  cases heq
  refine ⟨left, right, hcut, ?_, not_infix_of_splitFirst (List.cons_ne_nil _ _) hcut, hkey⟩
  rw [← List.append_assoc]
  exact eq_append_of_splitFirst hcut

/-- A line that begins with a visible character does so whatever stands behind the separator. -/
theorem head_defines_congr (h : ∀ c ∈ (left ++ (defines ++ right)).head?, isBlank c = false)
    (other : List Char) : ∀ c ∈ (left ++ (defines ++ other)).head?, isBlank c = false := by
  cases left with
  | nil => exact h
  | cons d left => exact h

/-- Where no word stands left of the separator, only the right-hand side is expanded. -/
theorem expandFrom_defines {body? : List Char → Option (List Char)} {k : Nat}
    (hwords : ∀ w ∈ words, IsWord w) (hleft : ∀ w ∈ words, hasWord w left = false)
    (right : List Char) :
    expandFrom words body? k (left ++ (defines ++ right)) =
      left ++ (defines ++ expandFrom words body? k right) := by
  have hself : expandFrom words body? k left = left :=
    expandFrom_eq_self fun w hw => (hasWord_eq_false_iff (hwords w hw)).1 (hleft w hw)
  have hcolon : isWordChar ':' = false := by decide
  change expandFrom words body? k (left ++ ':' :: ([] ++ ':' :: ([] ++ '=' :: right))) = _
  rw [expandFrom_append_cons hwords hcolon, expandFrom_append_cons hwords hcolon,
    expandFrom_append_cons hwords (by decide), expandFrom_nil, hself]
  rfl

/-- A line without words in it is left as it is. -/
theorem value_inlineLine_of_forall {key value : List Char}
    (hsplit : splitLine line = some (key, value)) (hkey : key ∉ words)
    (h : ∀ w ∈ words, hasWord w line = false) :
    (inlineLine ⟨words⟩ lines line).value = .ok (some line) := by
  rw [value_inlineLine_of_not_mem hsplit hkey fun _ => h, value_substitute_of_forall h]
  rfl

/-- The expansion of a line that is kept is a line that is kept, and its first character is
visible. -/
theorem exists_cut_expandFrom (body? : List Char → Option (List Char))
    (hwords : ∀ w ∈ words, IsWord w) (hfree : FreeLeft words lines)
    (hline : line ∈ keptLines words lines) (htrim : trim line = line) :
    ∃ left right, expandFrom words body? 0 line = left ++ (defines ++ right) ∧
      ¬ defines <:+: left ∧ trim left ∉ words ∧
      ∀ c ∈ (left ++ (defines ++ right)).head?, isBlank c = false := by
  obtain ⟨left, right, hcut, heq, hwithin, hkey⟩ := exists_cut_of_mem_keptLines hline
  refine ⟨left, expandFrom words body? 0 right, ?_, hwithin, hkey, ?_⟩
  · rw [heq, expandFrom_defines hwords (hfree line hline _ hcut)]
  · have hhead := head_trim line
    rw [htrim, heq] at hhead
    exact head_defines_congr hhead _

end

/-! ## The second time -/

/-- A text of trimmed productions that inlining leaves alone. -/
structure IsStable (words : List String) (text : String) : Prop where
  trimmed : ∀ line ∈ outputLines text, trim line = line
  production : ∀ line ∈ outputLines text, defines <:+: line
  again : ((ofWords words).run text).value = .ok text

section

variable {words lines : List (List Char)} {line body : List Char}

theorem trim_of_mem_linesOf {text : List Char} (h : line ∈ linesOf text) : trim line = line := by
  obtain ⟨part, -, rfl⟩ := List.mem_map.1 h
  exact trim_trim part

theorem newline_not_mem_of_mem_outputLines {out : String} (h : line ∈ outputLines out) :
    '\n' ∉ line :=
  (mem_splitChar (List.dropLast_subset _ h)).1

theorem endsVisible_of_mem_keptLines {text : List Char}
    (h : line ∈ keptLines words (linesOf text)) : EndsVisible line := by
  obtain ⟨left, right, -, heq, -, -⟩ := exists_cut_of_mem_keptLines h
  have htrim := trim_of_mem_linesOf (mem_keptLines.1 h).1
  rw [← htrim]
  apply endsVisible_trim
  rw [htrim, heq]
  simp [defines]

/-- What defines a word is trimmed. -/
theorem endsVisible_of_bodyOf? {w : List Char} (h : bodyOf? lines w = some body) (hne : body ≠ []) :
    EndsVisible body := by
  obtain ⟨l, -, hsplit⟩ := exists_line_of_bodyOf? h
  obtain ⟨⟨left, right⟩, -, heq⟩ := Option.map_eq_some_iff.1 hsplit
  cases heq
  exact endsVisible_trim hne

/-- What is printed has a blank line at the end. -/
theorem linesOf_printed {outs : List (List Char)} (h : ∀ l ∈ outs, '\n' ∉ l) :
    linesOf (printed outs).toList = outs.map trim ++ [[]] := by
  rw [linesOf, splitChar_printed h, List.map_append]
  rfl

/-- Lines that define no word stay, and the blank line at the end is dropped. -/
theorem keptLines_append_blank {outs : List (List Char)}
    (h : ∀ l ∈ outs, ∃ key value, splitLine l = some (key, value) ∧ key ∉ words) :
    keptLines words (outs ++ [[]]) = outs := by
  have hall : keptLines words outs = outs := by
    apply List.filter_eq_self.2
    intro l hl
    obtain ⟨key, value, hsplit, hkey⟩ := h l hl
    rw [hsplit, Option.any_some, Bool.not_eq_true', ← Bool.not_eq_true, List.contains_iff_mem]
    exact hkey
  rw [keptLines, List.filter_append, ← keptLines, hall]
  exact List.append_nil outs

end

section

variable {words : List String} {text out : String}
  (hwords : ∀ w ∈ words, IsWord w.toList) (hdistinct : words.Nodup)
  (hfree : FreeLeft (wordTexts words) (linesOf text.toList))
  (hrun : ((ofWords words).run text).value = .ok out)
include hwords hdistinct hfree hrun

/-- The lines that come out are the expansions of the lines that are kept. -/
theorem outputLines_eq_map_expandFrom :
    outputLines out =
      (keptOf words text).map (expandFrom (wordTexts words) (definedAs? text) 0) := by
  obtain ⟨hnone, -⟩ := (value_run_eq_ok_iff_of_freeLeft hwords hdistinct hfree).1 hrun
  have hlines := outputLines_of_run hrun
  rw [words_ofWords hwords] at hlines
  rw [hlines]
  apply List.map_congr_left
  intro line hline
  exact (eq_substituted_of_value_inlineLine hline (value_inlineLine_eq_ok
    (isWord_of_mem_wordTexts hwords) hfree hline (nodup_wordTexts hdistinct)
    (hnone line hline))).symm

theorem printed_outputLines : printed (outputLines out) = out := by
  obtain ⟨-, heq⟩ := (value_run_eq_ok_iff_of_freeLeft hwords hdistinct hfree).1 hrun
  rw [outputLines_eq_map_expandFrom hwords hdistinct hfree hrun]
  exact heq.symm

/-- A line that comes out has a separator and begins with a visible character. -/
theorem exists_cut_of_mem_outputLines {line : List Char} (hline : line ∈ outputLines out) :
    ∃ left right, line = left ++ (defines ++ right) ∧
      ∀ c ∈ (left ++ (defines ++ right)).head?, isBlank c = false := by
  rw [outputLines_eq_map_expandFrom hwords hdistinct hfree hrun] at hline
  obtain ⟨l, hkept, rfl⟩ := List.mem_map.1 hline
  obtain ⟨left, right, heq, -, -, hhead⟩ := exists_cut_expandFrom (definedAs? text)
    (isWord_of_mem_wordTexts hwords) hfree hkept (trim_of_mem_linesOf (mem_keptLines.1 hkept).1)
  exact ⟨left, right, heq, hhead⟩

/-- Where no word is defined as the empty text, every line that comes out ends with a visible
character. -/
theorem endsVisible_of_mem_outputLines
    (hnonempty : ∀ w ∈ words, definedAs? text w.toList ≠ some []) {line : List Char}
    (hline : line ∈ outputLines out) : EndsVisible line := by
  rw [outputLines_eq_map_expandFrom hwords hdistinct hfree hrun] at hline
  obtain ⟨l, hkept, rfl⟩ := List.mem_map.1 hline
  refine endsVisible_expandFrom (fun w hw body hbody => ?_) (endsVisible_of_mem_keptLines hkept)
  obtain ⟨word, hword, rfl⟩ := List.mem_map.1 hw
  refine endsVisible_of_bodyOf? hbody ?_
  rintro rfl
  exact hnonempty word hword hbody

variable (hlater : MentionsLater (wordTexts words) (definedAs? text))
include hlater

/-- In the lines that come out there is nothing to be inlined, so they are only trimmed. -/
theorem value_run_again :
    ((ofWords words).run out).value = .ok (printed ((outputLines out).map trim)) := by
  have hword := isWord_of_mem_wordTexts hwords
  have hlines := outputLines_eq_map_expandFrom hwords hdistinct hfree hrun
  obtain ⟨hnone, -⟩ := (value_run_eq_ok_iff_of_freeLeft hwords hdistinct hfree).1 hrun
  -- What a trimmed line defines is no word, and it mentions none.
  have hline : ∀ l ∈ (outputLines out).map trim,
      (∃ key value, splitLine l = some (key, value) ∧ key ∉ wordTexts words) ∧
        ∀ w ∈ wordTexts words, hasWord w l = false := by
    intro l hl
    rw [hlines, List.map_map] at hl
    obtain ⟨line, hkept, rfl⟩ := List.mem_map.1 hl
    have htrim := trim_of_mem_linesOf (mem_keptLines.1 hkept).1
    obtain ⟨left, right, heq, hwithin, hkey, -⟩ :=
      exists_cut_expandFrom (definedAs? text) hword hfree hkept htrim
    constructor
    · refine ⟨trim left, trim right, ?_, hkey⟩
      rw [Function.comp_apply, heq, splitLine_trim_defines hwithin]
    · intro w hw
      rw [hasWord_eq_false_iff (hword w hw), Function.comp_apply, (hword w hw).mem_runs_trim]
      exact not_mem_runs_expandFrom hword (nodup_wordTexts hdistinct) hlater
        (fun _ _ _ _ => Nat.zero_le _) (hnone line hkept) hw
  have hkept : keptLines (wordTexts words) (linesOf out.toList) = (outputLines out).map trim := by
    have hprinted := printed_outputLines hwords hdistinct hfree hrun
    rw [← hprinted, linesOf_printed fun _ => newline_not_mem_of_mem_outputLines, hprinted]
    exact keptLines_append_blank fun l hl => (hline l hl).1
  rw [words_ofWords hwords]
  refine value_run_eq_ok_iff.2 ⟨_, rfl, ?_⟩
  change List.Forall₂ _ (keptLines (wordTexts words) (linesOf out.toList)) _
  rw [hkept, List.forall₂_same]
  intro l hl
  obtain ⟨⟨key, value, hsplit, hkey⟩, hnoWord⟩ := hline l hl
  exact value_inlineLine_of_forall hsplit hkey hnoWord

/-- Inlining again changes nothing where no line that comes out ends in a blank. -/
theorem isStable_iff_last :
    IsStable words out ↔ ∀ line ∈ outputLines out, ∀ c ∈ line.getLast?, isBlank c = false := by
  constructor
  · intro h line hline c hc
    rw [← h.trimmed line hline] at hc
    exact last_trim line c hc
  · intro h
    have htrim : ∀ line ∈ outputLines out, trim line = line := by
      intro line hline
      obtain ⟨left, right, rfl, hhead⟩ :=
        exists_cut_of_mem_outputLines hwords hdistinct hfree hrun hline
      exact trim_eq_self hhead (h _ hline)
    have hproduction : ∀ line ∈ outputLines out, defines <:+: line := by
      intro line hline
      obtain ⟨left, right, rfl, -⟩ :=
        exists_cut_of_mem_outputLines hwords hdistinct hfree hrun hline
      exact (List.prefix_append defines right).isInfix.trans (List.suffix_append left _).isInfix
    refine ⟨htrim, hproduction, ?_⟩
    rw [value_run_again hwords hdistinct hfree hrun hlater, List.map_congr_left htrim, List.map_id',
      printed_outputLines hwords hdistinct hfree hrun]

end

/-- Inlining again trims the lines that come out. It changes nothing exactly where none of them
ends in a blank, and so it does where no word is defined as the empty text. -/
theorem isStable_iff (words : List String) (text out : String)
    (hwords : ∀ w ∈ words, IsWord w.toList) (hdistinct : words.Nodup)
    (hfree : FreeLeft (wordTexts words) (linesOf text.toList))
    (hlater : MentionsLater (wordTexts words) (definedAs? text))
    (hrun : ((ofWords words).run text).value = .ok out) :
    ((ofWords words).run out).value = .ok (printed ((outputLines out).map trim)) ∧
    (IsStable words out ↔
      ∀ line ∈ outputLines out, ∀ c ∈ line.getLast?, isBlank c = false) ∧
    ((∀ w ∈ words, definedAs? text w.toList ≠ some []) → IsStable words out) := by
  have hstable := isStable_iff_last hwords hdistinct hfree hrun hlater
  refine ⟨value_run_again hwords hdistinct hfree hrun hlater, hstable, fun hnonempty => ?_⟩
  refine hstable.2 fun line hline c hc => ?_
  obtain ⟨d, hlast, hd⟩ :=
    endsVisible_of_mem_outputLines hwords hdistinct hfree hrun hnonempty hline
  rw [hlast] at hc
  cases hc
  exact hd

/-- A word that is defined as the empty text leaves the blank in front of it at the end of the
line. -/
theorem not_isStable_empty :
    ((ofWords ["x"]).run "x ::=\nr ::= x\n").value = .ok "r ::= \n" ∧
    ¬ IsStable ["x"] "r ::= \n" := by
  refine ⟨by decide, fun hstable => ?_⟩
  have hlast := (isStable_iff ["x"] "x ::=\nr ::= x\n" "r ::= \n" (by decide) (by decide)
    (by decide) (mentionsLater_of_forall (by decide) (by decide)) (by decide)).2.1.1 hstable
  have hblank : isBlank ' ' = false := hlast "r ::= ".toList (by decide) ' ' rfl
  exact absurd hblank (by decide)

end CqlGlue.Listing
