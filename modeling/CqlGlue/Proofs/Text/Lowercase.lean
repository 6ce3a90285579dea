import CqlGlue.Text.Lowercase
import Mathlib

/-!
# What lower case leaves alone

Lower case changes letters, and what it puts in their place comes behind the capital letters in the
order of code points. So the characters in front of them, digits and most marks, are found in a text
in lower case only where they were before. In ASCII a letter has one counterpart at most, and
the others have none.

## Main statements
* `mem_of_mem_lowercase` says which characters come into a text from themselves only.
* `toLower_eq_iff` lists the characters that become a given one.
* `toList_lowercase_of_ascii` says that ASCII texts are put into lower case letter by letter.
-/

namespace CqlGlue.Text

variable {c d : Char}

/-- The counterparts beyond ASCII are no characters in front of the capital letters. -/
theorem target_of_mem_caseRuns {r : CaseRun} (h : r ∈ caseRuns) : 0x41 ≤ r.target := by
  have hall : ∀ r ∈ caseRuns.toList, 0x41 ≤ r.target := by decide +kernel
  exact hall r (Array.mem_toList_iff.2 h)

/-- A letter that is changed becomes a small one. -/
theorem toNat_toLower (h : c.toLower ≠ c) :
    0x61 ≤ c.toLower.toNat ∧ c.toLower.toNat ≤ 0x7A := by
  have hupper : c.isUpper = true := by
    by_contra hother
    exact h (Char.toLower_eq_of_not_isUpper hother)
  have hrange : 0x41 ≤ c.toNat ∧ c.toNat ≤ 0x5A := by
    rw [Char.isUpper, decide_eq_true_iff] at hupper
    exact hupper
  have hvalid : (c.toNat + 32).isValidChar := .inl (by omega)
  rw [Char.toLower_eq_of_isUpper hupper, Char.toNat_ofNat, if_pos hvalid]
  omega

/-- A character in front of the capital letters is the counterpart of no other one. -/
theorem eq_of_lowerChar_eq (h : lowerChar d = c) (hpos : 0 < c.toNat) (hlt : c.toNat < 0x41) :
    d = c := by
  rw [lowerChar] at h
  split at h
  · by_contra hne
    have := toNat_toLower (c := d) fun heq => hne (heq.symm.trans h)
    rw [h] at this
    omega
  · split at h
    · rename_i r hr
      split at h
      · have htarget := target_of_mem_caseRuns (Array.mem_of_find?_eq_some hr)
        have hnat := congrArg Char.toNat h
        rw [Char.toNat_ofNat] at hnat
        split at hnat <;> omega
      · exact h
    · exact h

theorem mem_of_mem_lowercaseAfter {before cs : List Char} (h : c ∈ lowercaseAfter before cs)
    (hpos : 0 < c.toNat) (hlt : c.toNat < 0x41) : c ∈ cs := by
  induction before, cs using lowercaseAfter.induct with
  | case1 => exact absurd h List.not_mem_nil
  | case2 before rest ih =>
    rw [lowercaseAfter] at h
    rcases List.mem_cons.1 h with rfl | h
    · split at hlt <;> exact absurd hlt (by decide)
    · exact List.mem_cons_of_mem _ (ih h)
  | case3 before rest ih =>
    rw [lowercaseAfter] at h
    rcases List.mem_cons.1 h with rfl | h
    · exact absurd hlt (by decide)
    rcases List.mem_cons.1 h with rfl | h
    · exact absurd hlt (by decide)
    · exact List.mem_cons_of_mem _ (ih h)
  | case4 before d rest hsigma hdotted ih =>
    rw [lowercaseAfter] at h
    · rcases List.mem_cons.1 h with h | h
      · exact eq_of_lowerChar_eq h.symm hpos hlt ▸ List.mem_cons_self
      · exact List.mem_cons_of_mem _ (ih h)
    · exact hsigma
    · exact hdotted

/-- A character in front of the capital letters comes into a text in lower case only from itself. -/
theorem mem_of_mem_lowercase {s : String} (h : c ∈ (lowercase s).toList) (hpos : 0 < c.toNat)
    (hlt : c.toNat < 0x41) : c ∈ s.toList := by
  rw [lowercase, String.toList_ofList] at h
  exact mem_of_mem_lowercaseAfter h hpos hlt

/-! ## ASCII -/

/-- The characters that become a letter in lower case are the letter and its capital. -/
theorem toLower_eq_iff (h : d.toLower = d) : c.toLower = d ↔ c = d ∨ c = d.toUpper := by
  constructor
  · rintro rfl
    by_cases hupper : c.isUpper = true
    · right
      rw [Char.toUpper_toLower_eq_toUpper, Char.toUpper_eq_of_not_isLower]
      exact Char.not_isLower_of_isUpper hupper
    · exact .inl (Char.toLower_eq_of_not_isUpper hupper).symm
  · rintro (rfl | rfl)
    · exact h
    · rw [Char.toLower_toUpper_eq_toLower, h]

/-- A character without another case comes only from itself. -/
theorem eq_of_toLower_eq (h : c.toLower = d) (hlower : d.toLower = d) (hupper : d.toUpper = d) :
    c = d := by
  rcases (toLower_eq_iff hlower).1 h with hc | hc
  · exact hc
  · exact hc.trans hupper

theorem toNat_toLower_lt (h : c.toNat < 128) : c.toLower.toNat < 128 := by
  by_cases heq : c.toLower = c
  · rwa [heq]
  · have := toNat_toLower heq
    omega

theorem lowercaseAfter_of_ascii {before cs : List Char} (h : ∀ c ∈ cs, c.toNat < 128) :
    lowercaseAfter before cs = cs.map Char.toLower := by
  induction before, cs using lowercaseAfter.induct with
  | case1 => rfl
  | case2 before rest ih => exact absurd (h 'Σ' List.mem_cons_self) (by decide)
  | case3 before rest ih => exact absurd (h 'İ' List.mem_cons_self) (by decide)
  | case4 before c rest hsigma hdotted ih =>
    have hc : lowerChar c = c.toLower := if_pos (h c List.mem_cons_self)
    rw [lowercaseAfter, hc, ih fun d hd => h d (List.mem_cons_of_mem _ hd)]
    · rfl
    · exact hsigma
    · exact hdotted

theorem toList_lowercase_of_ascii {s : String} (h : ∀ c ∈ s.toList, c.toNat < 128) :
    (lowercase s).toList = s.toList.map Char.toLower := by
  rw [lowercase, String.toList_ofList, lowercaseAfter_of_ascii h]

end CqlGlue.Text
