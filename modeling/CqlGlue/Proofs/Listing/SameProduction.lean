import CqlGlue.Proofs.Listing.KeptLines
import CqlGlue.Proofs.Listing.Separator

/-!
# What the reader and the inliner take from a line

Reading a listing and inlining both cut a line into a name and a right-hand side. The inliner cuts
at the first separator and the reader at the last, so they take the same from a line exactly if it
has one separator. In a line with several of them, for example where a quoted token looks like one,
the reader's name holds what the inliner takes for the right-hand side.

## Main definitions
* `TakenFrom` is what both take from a line.

## Main statements
* `value_run_eq_empty_iff` says when the inliner drops a line.
* `exists_takenFrom` says that both take something from every line with a separator, and when they
  take the same.
-/

namespace CqlGlue.Listing

open Text Inliner

/-- The name and the right-hand side that the reader takes from a line, and the left-hand side and
the body that the inliner takes from it. -/
structure TakenFrom (line raw body key value : List Char) : Prop where
  /-- The reader cuts the line in two. -/
  definitions : definitions line = [(raw, body)]
  /-- The listing of this line alone has one production. -/
  entries : (Grammar.parse (String.ofList line)).entries =
    [(String.ofList (trim raw), readProduction body)]
  /-- The inliner cuts the trimmed line in two. -/
  splitLine : splitLine (trim line) = some (key, value)
  /-- The line is dropped where its left-hand side is one of the words. -/
  dropped : ∀ words, ((Inliner.mk words).run (String.ofList line)).value = .ok "" ↔ key ∈ words
  /-- The body is what would be put for the left-hand side. -/
  body? : bodyOf? (linesOf line) key = some value

variable {line raw body key value : List Char}

theorem linesOf_of_line (h : '\n' ∉ line) : linesOf line = [trim line] := by
  rw [linesOf, splitChar_of_not_mem h, List.map_singleton]

/-- A line that defines something is dropped exactly where it defines a word. -/
theorem value_run_eq_empty_iff (h : '\n' ∉ line)
    (hsplit : splitLine (trim line) = some (key, value)) (words : List (List Char)) :
    ((Inliner.mk words).run (String.ofList line)).value = .ok "" ↔ key ∈ words := by
  rw [value_run_eq_ok_iff, String.toList_ofList, linesOf_of_line h]
  have hkept : trim line ∈ keptLines words [trim line] ↔ key ∉ words := by
    rw [mem_keptLines, hsplit]
    simp
  constructor
  · rintro ⟨outs, hout, hlines⟩
    have houts : outs = [] := by
      have htext := congrArg String.toList hout.symm
      rw [printed, String.toList_ofList] at htext
      exact List.eq_nil_iff_forall_not_mem.2 fun out hout =>
        absurd (List.flatMap_eq_nil_iff.1 htext out hout) (by simp)
    rw [houts, List.forall₂_nil_right_iff] at hlines
    by_contra hkey
    exact List.ne_nil_of_mem (hkept.2 hkey) hlines
  · intro hkey
    have hnil : keptLines words [trim line] = [] := by
      refine List.eq_nil_iff_forall_not_mem.2 fun l hl => ?_
      obtain rfl : l = trim line := List.mem_singleton.1 (mem_keptLines.1 hl).1
      exact hkept.1 hl hkey
    exact ⟨[], rfl, List.forall₂_nil_right_iff.2 hnil⟩

/-- A line cut at its last and at its first separator. -/
theorem takenFrom_of_splitLast {left right front back : List Char} (h : '\n' ∉ line)
    (hlast : splitLast defines line = some (front, back)) (hleft : ¬ defines <:+: left)
    (hfirst : line = left ++ (defines ++ right)) :
    TakenFrom line front (trimLeft back) (trim left) (trim right) := by
  have hdefinitions : definitions line = [(front, trimLeft back)] := by
    rw [definitions_of_line h, hlast]
    rfl
  have hsplit : splitLine (trim line) = some (trim left, trim right) := by
    rw [hfirst, splitLine_trim_defines hleft]
  refine ⟨hdefinitions, ?_, hsplit, value_run_eq_empty_iff h hsplit, ?_⟩
  · rw [Grammar.parse, String.toList_ofList, readDefinitions, hdefinitions]
    refine (Grammar.entries_defineAll _).trans ?_
    simp [Grammar.merged, List.eraseDups_cons]
  · rw [bodyOf?, linesOf_of_line h, List.filterMap_cons, hsplit]
    simp

/-- The reader and the inliner each take one production from a line with a separator. The names are
the same, and so are the right-hand sides up to blanks around them, exactly if the line has a single
separator. -/
theorem exists_takenFrom (h : '\n' ∉ line) (hin : defines <:+: line) :
    ∃ raw body key value, TakenFrom line raw body key value ∧
      (trim raw = key ↔ SeparatesOnce line) ∧ (trim body = value ↔ SeparatesOnce line) := by
  cases hfirst : splitFirst defines line with
  | none => exact absurd hin (splitFirst_eq_none_iff.1 hfirst)
  | some p =>
    obtain ⟨left, right⟩ := p
    have hleft : ¬ defines <:+: left := not_infix_of_splitFirst (List.cons_ne_nil _ _) hfirst
    have heq : line = left ++ (defines ++ right) := by
      rw [← List.append_assoc]
      exact eq_append_of_splitFirst hfirst
    have honce : SeparatesOnce line ↔ ¬ defines <:+: right := by
      rw [heq]
      exact separatesOnce_iff hleft
    cases hright : splitLast defines right with
    | none =>
      -- There is no other separator, so both cut here.
      have hnot := splitLast_eq_none_iff.1 hright
      have hlast := splitLast_defines hnot left
      rw [List.append_assoc, ← heq] at hlast
      exact ⟨_, _, _, _, takenFrom_of_splitLast h hlast hleft heq, iff_of_true rfl (honce.2 hnot),
        iff_of_true (trim_trimLeft right) (honce.2 hnot)⟩
    | some q =>
      -- The last separator stands behind the first one, which is part of the reader's name.
      obtain ⟨middle, back⟩ := q
      have hlast := splitLast_append hright (left ++ defines)
      rw [List.append_assoc, ← heq] at hlast
      have hrightIn : defines <:+: right := by
        by_contra hnot
        rw [splitLast_eq_none_iff.2 hnot] at hright
        cases hright
      have hback : ¬ defines <:+: back := not_infix_of_splitLast (List.cons_ne_nil _ _) hright
      refine ⟨_, _, _, _, takenFrom_of_splitLast h hlast hleft heq,
        iff_of_false (fun hname => hleft ?_) fun h => honce.1 h hrightIn,
        iff_of_false (fun hbody => hback ?_) fun h => honce.1 h hrightIn⟩
      · rw [← infix_trim_iff, ← hname, infix_trim_iff]
        exact ⟨left, middle, rfl⟩
      · rw [← infix_trimLeft_iff, ← infix_trim_iff, hbody, infix_trim_iff]
        exact hrightIn

/-- The reader takes a quoted token for the separator, and the inliner does not. -/
theorem takenFrom_quotedSeparator :
    let line := "assign ::= name \"::=\" expr".toList
    ('\n' ∉ line ∧ defines <:+: line) ∧ ∃ raw body key value, TakenFrom line raw body key value ∧
      trim raw ≠ key ∧ trim body ≠ value := by
  intro line
  have hline : '\n' ∉ line := by decide +kernel
  have hin : defines <:+: line := by decide +kernel
  have htwice : ¬ SeparatesOnce line := by decide +kernel
  obtain ⟨raw, body, key, value, htaken, hname, hbody⟩ := exists_takenFrom hline hin
  exact ⟨⟨hline, hin⟩, raw, body, key, value, htaken, fun h => htwice (hname.1 h),
    fun h => htwice (hbody.1 h)⟩

end CqlGlue.Listing
