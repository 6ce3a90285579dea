import CqlGlue.Proofs.Listing.Inlined
import Mathlib.Data.List.Forall2

/-!
# Lines that are kept

Inlining goes through the lines of a listing in order. Lines that define no production and lines
that define a word are dropped, every other line gives one line, and the first line that fails
ends the work.

## Main definitions
* `substituted` is what becomes of a line.
* `keptLines` are the lines that are not dropped, `FreeLeft` says that they have no word left of the
  separator.

## Main statements
* `value_inlineLines_eq_ok_iff` and `value_inlineLines_eq_error` say what becomes of several lines.
* `value_run_eq_ok_iff` says the same of a listing.
-/

namespace CqlGlue.Listing

open Text Inliner

/-- The lines that define a production which is not a word. -/
def keptLines (words lines : List (List Char)) : List (List Char) :=
  lines.filter fun line => (splitLine line).any fun p => !words.contains p.1

/-- Puts for a word what defines it, if anything does. -/
def putWord (body? : List Char → Option (List Char)) (s w : List Char) : List Char :=
  ((body? w).map fun body => replaceWord w body s).getD s

/-- Puts for each word in order what defines it. -/
def putWords (body? : List Char → Option (List Char)) (words : List (List Char)) (s : List Char) :
    List Char :=
  words.foldl (putWord body?) s

/-- What a line that is kept becomes where no definition is missing: the words are substituted in
the whole line when the right-hand side mentions one. -/
def substituted (words lines : List (List Char)) (line : List Char) : List Char :=
  if (splitLine line).any fun p => words.any (hasWord · p.2) then
    putWords (bodyOf? lines) words line
  else line

/-- No line that is kept has a word left of its separator. -/
def FreeLeft (words lines : List (List Char)) : Prop :=
  ∀ line ∈ keptLines words lines, ∀ p ∈ splitFirst defines line, ∀ w ∈ words,
    hasWord w p.1 = false

instance (words lines : List (List Char)) : Decidable (FreeLeft words lines) :=
  inferInstanceAs (Decidable (∀ line ∈ keptLines words lines, ∀ p ∈ splitFirst defines line,
    ∀ w ∈ words, hasWord w p.1 = false))

variable {words lines ls outs before after : List (List Char)} {line : List Char}

theorem mem_keptLines :
    line ∈ keptLines words lines ↔
      line ∈ lines ∧ ∃ key value, splitLine line = some (key, value) ∧ key ∉ words := by
  rw [keptLines, List.mem_filter]
  refine and_congr_right fun _ => ?_
  cases splitLine line with
  | none => simp
  | some p =>
    obtain ⟨key, value⟩ := p
    simp

/-- The words count, and not their order. -/
theorem keptLines_congr {others : List (List Char)} (h : ∀ w, w ∈ others ↔ w ∈ words) :
    keptLines others lines = keptLines words lines := by
  apply List.filter_congr
  intro line _
  congr 1
  funext p
  rw [Bool.eq_iff_iff, Bool.not_eq_true', Bool.not_eq_true', Bool.eq_false_iff, Bool.eq_false_iff,
    Ne, Ne, List.contains_iff_mem, List.contains_iff_mem, h]

/-! ## One line -/

theorem putWord_of_some {body? : List Char → Option (List Char)} {w body : List Char}
    (hbody : body? w = some body) (s : List Char) : putWord body? s w = replaceWord w body s := by
  rw [putWord, hbody]
  rfl

theorem putWord_of_none {body? : List Char → Option (List Char)} {w : List Char}
    (hbody : body? w = none) (s : List Char) : putWord body? s w = s := by
  rw [putWord, hbody]
  rfl

theorem putWord_of_hasWord_eq_false {body? : List Char → Option (List Char)} {w s : List Char}
    (h : hasWord w s = false) : putWord body? s w = s := by
  cases hbody : body? w with
  | none => exact putWord_of_none hbody s
  | some body =>
    rw [putWord_of_some hbody]
    exact replaceWordAfter_eq_self h

/-- Without a word nothing is put. -/
theorem putWords_eq_self {body? : List Char → Option (List Char)} {s : List Char}
    (h : ∀ w ∈ words, hasWord w s = false) : putWords body? words s = s := by
  induction words with
  | nil => rfl
  | cons w words ih =>
    rw [putWords, List.foldl_cons, putWord_of_hasWord_eq_false (h w List.mem_cons_self)]
    exact ih fun v hv => h v (List.mem_cons_of_mem _ hv)

theorem mem_putWords {body? : List Char → Option (List Char)} {s : List Char} {c : Char}
    (h : c ∈ putWords body? words s) : c ∈ s ∨ ∃ w body, body? w = some body ∧ c ∈ body := by
  induction words generalizing s with
  | nil => exact .inl h
  | cons w words ih =>
    rcases ih h with h | h
    · cases hbody : body? w with
      | none =>
        rw [putWord_of_none hbody] at h
        exact .inl h
      | some body =>
        rw [putWord_of_some hbody] at h
        exact (mem_replaceWordAfter h).imp_right fun hc => ⟨w, body, hbody, hc⟩
    · exact .inr h

/-- Where no definition is missing the words are put in order. -/
theorem eq_putWords_of_substitute {rule : String} {s out : List Char}
    (h : (substitute lines rule words s).value = .ok out) :
    out = putWords (bodyOf? lines) words s := by
  induction words generalizing s with
  | nil =>
    cases h
    rfl
  | cons w words ih =>
    rw [putWords, List.foldl_cons]
    cases hbody : bodyOf? lines w with
    | some body =>
      rw [value_substitute_cons hbody] at h
      rw [putWord_of_some hbody]
      exact ih h
    | none =>
      rw [substitute, hbody] at h
      rw [putWord_of_none hbody]
      split at h
      · cases h
      · exact ih h

theorem exists_line_of_bodyOf? {w body : List Char} (h : bodyOf? lines w = some body) :
    ∃ l ∈ lines, splitLine l = some (w, body) := by
  obtain ⟨front, back, heq, -⟩ := List.lookup_eq_some_iff.1 h
  have hmem : (w, body) ∈ (lines.filterMap splitLine).reverse := by
    rw [heq]
    exact List.mem_append_right _ List.mem_cons_self
  exact List.mem_filterMap.1 (List.mem_reverse.1 hmem)

theorem subset_of_splitLine {key value : List Char} (h : splitLine line = some (key, value)) :
    value ⊆ line := by
  obtain ⟨⟨left, right⟩, hcut, heq⟩ := Option.map_eq_some_iff.1 h
  cases heq
  intro c hc
  rw [eq_append_of_splitFirst hcut]
  exact List.mem_append_right _ (trim_subset right hc)

theorem eq_substituted_of_value_inlineLine {out : List Char} (hkept : line ∈ keptLines words lines)
    (h : (inlineLine ⟨words⟩ lines line).value = .ok (some out)) :
    out = substituted words lines line := by
  obtain ⟨-, key, value, hsplit, hkey⟩ := mem_keptLines.1 hkept
  rw [value_inlineLine_of_kept hsplit hkey] at h
  rw [substituted, hsplit, Option.any_some]
  split at h
  · rename_i hany
    rw [if_pos hany]
    cases hvalue : (substitute lines (String.ofList key) words line).value with
    | error e =>
      rw [hvalue] at h
      cases h
    | ok s =>
      rw [hvalue] at h
      cases h
      exact eq_putWords_of_substitute hvalue
  · rename_i hany
    rw [if_neg hany]
    cases h
    rfl

/-- What becomes of a line holds nothing that the lines do not hold. -/
theorem mem_substituted {c : Char} (h : c ∈ substituted words lines line) :
    c ∈ line ∨ ∃ l ∈ lines, c ∈ l := by
  rw [substituted] at h
  split at h
  · refine (mem_putWords h).imp_right ?_
    rintro ⟨w, body, hbody, hc⟩
    obtain ⟨l, hl, hsplit⟩ := exists_line_of_bodyOf? hbody
    exact ⟨l, hl, subset_of_splitLine hsplit hc⟩
  · exact .inl h

/-! ## Lines in order -/

/-- What becomes of a line that is not kept. -/
theorem value_inlineLine_of_not_kept
    (h : ¬ ((splitLine line).any fun p => !words.contains p.1) = true) :
    (inlineLine ⟨words⟩ lines line).value = .ok none := by
  cases hsplit : splitLine line with
  | none =>
    rw [inlineLine, hsplit]
  | some p =>
    rw [hsplit, Option.any_some, Bool.not_eq_true', Bool.not_eq_false,
      List.contains_iff_mem] at h
    exact value_inlineLine_of_mem hsplit h

/-- A line that is kept gives a line or a failure. -/
theorem exists_value_inlineLine (lines : List (List Char))
    (h : ((splitLine line).any fun p => !words.contains p.1) = true) :
    (∃ out, (inlineLine ⟨words⟩ lines line).value = .ok (some out)) ∨
      ∃ e, (inlineLine ⟨words⟩ lines line).value = .error e := by
  cases hsplit : splitLine line with
  | none =>
    rw [hsplit] at h
    cases h
  | some p =>
    rw [hsplit, Option.any_some, Bool.not_eq_true', ← Bool.not_eq_true, List.contains_iff_mem] at h
    rw [value_inlineLine_of_kept hsplit h]
    split
    · cases (substitute lines (String.ofList p.1) words line).value with
      | error e => exact .inr ⟨e, rfl⟩
      | ok out => exact .inl ⟨out, rfl⟩
    · exact .inl ⟨line, rfl⟩

theorem inlineLines_cons (line : List Char) (ls : List (List Char)) :
    (inlineLines ⟨words⟩ lines (line :: ls)).value =
      match (inlineLine ⟨words⟩ lines line).value with
      | .error e => .error e
      | .ok out => (inlineLines ⟨words⟩ lines ls).value.map (out.toList ++ ·) := by
  rw [inlineLines]
  cases (inlineLine ⟨words⟩ lines line).value with
  | error e => rfl
  | ok out => rfl

/-- Inlining succeeds where every line that is kept gives a line, and these come out in order. -/
theorem value_inlineLines_eq_ok_iff :
    (inlineLines ⟨words⟩ lines ls).value = .ok outs ↔
      List.Forall₂ (fun line out => (inlineLine ⟨words⟩ lines line).value = .ok (some out))
        (keptLines words ls) outs := by
  induction ls generalizing outs with
  | nil =>
    rw [keptLines, List.filter_nil, List.forall₂_nil_left_iff, inlineLines, Except.ok.injEq,
      eq_comm]
  | cons line ls ih =>
    rw [inlineLines_cons, keptLines, List.filter_cons]
    split_ifs with hkept
    · rcases exists_value_inlineLine lines hkept with ⟨out, hout⟩ | ⟨e, he⟩
      · rw [hout, List.forall₂_cons_left_iff]
        simp only [hout, Except.ok.injEq, Option.some.injEq]
        constructor
        · intro h
          cases hrest : (inlineLines ⟨words⟩ lines ls).value with
          | error e =>
            rw [hrest] at h
            cases h
          | ok rest =>
            rw [hrest] at h
            cases h
            exact ⟨out, rest, rfl, ih.1 hrest, rfl⟩
        · rintro ⟨_, outs', rfl, h, rfl⟩
          rw [ih.2 h]
          rfl
      · rw [he, List.forall₂_cons_left_iff]
        constructor
        · intro h
          cases h
        · rintro ⟨out, _, hout, -, -⟩
          rw [he] at hout
          cases hout
    · rw [value_inlineLine_of_not_kept hkept]
      dsimp only
      rw [← keptLines, ← ih]
      cases (inlineLines ⟨words⟩ lines ls).value <;> rfl

/-- The first line that fails ends the work. -/
theorem value_inlineLines_eq_error {e : InlineError}
    (hkept : keptLines words ls = before ++ line :: after)
    (hbefore : ∀ l ∈ before, ∃ out, (inlineLine ⟨words⟩ lines l).value = .ok (some out))
    (hline : (inlineLine ⟨words⟩ lines line).value = .error e) :
    (inlineLines ⟨words⟩ lines ls).value = .error e := by
  induction ls generalizing before with
  | nil => exact absurd hkept.symm (by simp [keptLines])
  | cons l ls ih =>
    rw [inlineLines_cons]
    rw [keptLines, List.filter_cons] at hkept
    split_ifs at hkept with hl
    · cases before with
      | nil =>
        rw [(List.cons.inj hkept).1, hline]
      | cons l' before =>
        obtain ⟨rfl, hrest⟩ := List.cons.inj hkept
        obtain ⟨out, hout⟩ := hbefore l List.mem_cons_self
        rw [hout]
        dsimp only
        rw [ih hrest fun l' hl' => hbefore l' (List.mem_cons_of_mem _ hl')]
        rfl
    · rw [value_inlineLine_of_not_kept hl]
      dsimp only
      rw [ih hkept hbefore]
      rfl

/-! ## Listings -/

/-- Lines as they are printed, with a line end behind each. -/
def printed (outs : List (List Char)) : String := String.ofList (outs.flatMap (· ++ ['\n']))

theorem value_run (inliner : Inliner) (text : String) :
    (inliner.run text).value =
      (inlineLines inliner (linesOf text.toList) (linesOf text.toList)).value.map printed := rfl

theorem value_run_eq_ok_iff {inliner : Inliner} {text out : String} :
    (inliner.run text).value = .ok out ↔
      ∃ outs, out = printed outs ∧
        List.Forall₂ (fun line out =>
            (inlineLine inliner (linesOf text.toList) line).value = .ok (some out))
          (keptLines inliner.words (linesOf text.toList)) outs := by
  rw [value_run]
  constructor
  · intro h
    cases hvalue : (inlineLines inliner (linesOf text.toList) (linesOf text.toList)).value with
    | error e =>
      rw [hvalue] at h
      cases h
    | ok outs =>
      rw [hvalue] at h
      cases h
      exact ⟨outs, rfl, value_inlineLines_eq_ok_iff.1 hvalue⟩
  · rintro ⟨outs, rfl, h⟩
    rw [value_inlineLines_eq_ok_iff.2 h]
    rfl

/-- The lines of what is printed. -/
def outputLines (out : String) : List (List Char) := (splitChar '\n' out.toList).dropLast

theorem splitChar_printed (h : ∀ l ∈ outs, '\n' ∉ l) :
    splitChar '\n' (printed outs).toList = outs ++ [[]] := by
  rw [printed, String.toList_ofList]
  induction outs with
  | nil => rfl
  | cons l outs ih =>
    rw [List.flatMap_cons, List.append_assoc, List.singleton_append,
      splitChar_append_cons (h l List.mem_cons_self),
      ih fun l' hl' => h l' (List.mem_cons_of_mem _ hl'), List.cons_append]

theorem outputLines_printed (h : ∀ l ∈ outs, '\n' ∉ l) : outputLines (printed outs) = outs := by
  rw [outputLines, splitChar_printed h, List.dropLast_concat]

theorem newline_not_mem_of_mem_linesOf {text : List Char} (h : line ∈ linesOf text) :
    '\n' ∉ line := by
  obtain ⟨part, hpart, rfl⟩ := List.mem_map.1 h
  exact fun hmem => (mem_splitChar hpart).1 (trim_subset part hmem)

theorem eq_map_substituted (hkept : ∀ l ∈ ls, l ∈ keptLines words lines)
    (h : List.Forall₂ (fun l out => (inlineLine ⟨words⟩ lines l).value = .ok (some out)) ls outs) :
    outs = ls.map (substituted words lines) := by
  induction h with
  | nil => rfl
  | cons hfirst _ ih =>
    rw [eq_substituted_of_value_inlineLine (hkept _ List.mem_cons_self) hfirst,
      ih fun l hl => hkept l (List.mem_cons_of_mem _ hl), List.map_cons]

/-- The lines that come out are what becomes of the lines that are kept. -/
theorem outputLines_of_run {inliner : Inliner} {text out : String}
    (h : (inliner.run text).value = .ok out) :
    outputLines out = (keptLines inliner.words (linesOf text.toList)).map
      (substituted inliner.words (linesOf text.toList)) := by
  obtain ⟨outs, rfl, hlines⟩ := value_run_eq_ok_iff.1 h
  have houts := eq_map_substituted (fun _ hline => hline) hlines
  rw [outputLines_printed]
  · exact houts
  · rw [houts]
    intro l hl hmem
    obtain ⟨line, hline, rfl⟩ := List.mem_map.1 hl
    rcases mem_substituted hmem with hmem | ⟨l', hl', hmem⟩
    · exact newline_not_mem_of_mem_linesOf (mem_keptLines.1 hline).1 hmem
    · exact newline_not_mem_of_mem_linesOf hl' hmem

theorem value_run_eq_error {inliner : Inliner} {text : String} {e : InlineError}
    (hkept : keptLines inliner.words (linesOf text.toList) = before ++ line :: after)
    (hbefore : ∀ l ∈ before,
      ∃ out, (inlineLine inliner (linesOf text.toList) l).value = .ok (some out))
    (hline : (inlineLine inliner (linesOf text.toList) line).value = .error e) :
    (inliner.run text).value = .error e := by
  rw [value_run, value_inlineLines_eq_error hkept hbefore hline]
  rfl

end CqlGlue.Listing
