import CqlGlue.Proofs.Json.Grammar

/-!
# Reading strings

The characters between two quotes are read up to the second one, whatever follows it: either they
denote a string or they give none. Passing over them always ends at the quote.

## Main statements
* `exists_gives_stringBody`: what a string gives depends on its characters only.
* `Spells.takes_stringBody`: what is spelled is read.
* `takes_skipString`: every string is passed over.
-/

namespace CqlGlue.Json

open Decoder

variable {cs s rest ds es : List Char} {c e : Char} {n m : Nat}

/-! ## Escapes -/

theorem IsHex.takes_fourHex (h : IsHex n ds) (rest : List Char) :
    Takes fourHex (ds ++ rest) n rest := by
  obtain ⟨x, y, z, w, a, b, c, d, rfl, hx, hy, hz, hw, rfl⟩ := h
  intro place
  have hlength : ¬Text.byteLength (([x, y, z, w] ++ rest).take 4) < 4 := by
    have hpos := fun c : Char => c.utf8Size_pos
    have := hpos x
    have := hpos y
    have := hpos z
    have := hpos w
    simp only [List.cons_append, List.nil_append, List.take_succ_cons, List.take_zero,
      Text.byteLength]
    omega
  refine ⟨⟨place.line, place.column + 4⟩, ?_⟩
  rw [fourHex, get_bind_apply, if_neg hlength]
  simp only [List.cons_append, List.nil_append, hx, hy, hz, hw]
  rfl

/-- The part of a pair is there. -/
theorem takes_pairPart (c : Char) (rest : List Char) : Takes (pairPart c) (c :: rest) () rest := by
  refine (takes_peek? _).bind_takes ?_
  simp only [List.head?_cons, if_true]
  exact takes_drop c rest

/-- Another character is there. -/
theorem fails_pairPart (h : rest.head? ≠ some c) : Fails (pairPart c) rest := by
  refine (takes_peek? _).bind_fails ?_
  cases rest with
  | nil => exact fails_failHere _ _
  | cons x xs =>
    have hne : x ≠ c := fun heq => h (by rw [heq, List.head?_cons])
    simp only [List.head?_cons, if_neg hne]
    exact fails_failAhead _ _

theorem takes_numericEscape (hds : IsHex n ds) (hn : n < 0xD800 ∨ 0xDFFF < n)
    (rest : List Char) : Takes numericEscape (ds ++ rest) (Char.ofNat n) rest := by
  refine (hds.takes_fourHex rest).bind_takes ?_
  rw [if_neg (by simp; omega), if_pos (by simp; omega)]
  exact takes_pure _ rest

theorem fails_numericEscape_low (hds : IsHex n ds) (hn : 0xDC00 ≤ n ∧ n ≤ 0xDFFF)
    (rest : List Char) : Fails numericEscape (ds ++ rest) := by
  refine (hds.takes_fourHex rest).bind_fails ?_
  rw [if_pos (by simpa using hn)]
  exact fails_failHere _ _

/-- A leading surrogate goes on with what should be the escape of a trailing one. -/
theorem gives_numericEscape_high (hds : IsHex n ds) (hn : 0xD800 ≤ n ∧ n ≤ 0xDBFF)
    {r : Option Char} {mid : List Char}
    (h : Gives (do
      pairPart '\\'
      pairPart 'u'
      let m ← fourHex
      if m < 0xDC00 || m > 0xDFFF then failHere .loneSurrogate
      else return Char.ofNat ((n - 0xD800) * 0x400 + (m - 0xDC00) + 0x10000)) rest r mid) :
    Gives numericEscape (ds ++ rest) r mid := by
  refine Takes.bind (hds.takes_fourHex rest) ?_
  rw [if_neg (by simp; omega), if_neg (by simp; omega)]
  exact h

theorem takes_numericEscape_pair (hds : IsHex n ds) (hes : IsHex m es)
    (hn : 0xD800 ≤ n ∧ n ≤ 0xDBFF) (hm : 0xDC00 ≤ m ∧ m ≤ 0xDFFF) (rest : List Char) :
    Takes numericEscape (ds ++ '\\' :: 'u' :: (es ++ rest))
      (Char.ofNat ((n - 0xD800) * 0x400 + (m - 0xDC00) + 0x10000)) rest := by
  refine gives_numericEscape_high (r := some _) hds hn ?_
  refine (takes_pairPart _ _).bind_takes ?_
  refine (takes_pairPart _ _).bind_takes ?_
  refine (hes.takes_fourHex rest).bind_takes ?_
  rw [if_neg (by simp; omega)]
  exact takes_pure _ rest

/-- No other escape makes a character of a leading surrogate. -/
theorem fails_numericEscape_pair (hds : IsHex n ds) (hes : IsHex m es)
    (hn : 0xD800 ≤ n ∧ n ≤ 0xDBFF) (hm : m < 0xDC00 ∨ 0xDFFF < m) (rest : List Char) :
    Fails numericEscape (ds ++ '\\' :: 'u' :: (es ++ rest)) := by
  change Gives _ _ none []
  refine gives_numericEscape_high hds hn ?_
  refine (takes_pairPart _ _).bind_fails ?_
  refine (takes_pairPart _ _).bind_fails ?_
  refine (hes.takes_fourHex rest).bind_fails ?_
  rw [if_pos (by simpa using hm)]
  exact fails_failHere _ _

/-- Neither does anything that is no escape of a number. -/
theorem fails_numericEscape_alone (hds : IsHex n ds) (hn : 0xD800 ≤ n ∧ n ≤ 0xDBFF)
    (h : ∀ more, rest ≠ '\\' :: 'u' :: more) : Fails numericEscape (ds ++ rest) := by
  change Gives _ _ none []
  refine gives_numericEscape_high hds hn ?_
  by_cases hhead : rest.head? = some '\\'
  · obtain ⟨more, rfl⟩ := List.head?_eq_some_iff.1 hhead
    refine (takes_pairPart _ _).bind_fails ?_
    refine (fails_pairPart fun hu => ?_).bind _
    obtain ⟨more', rfl⟩ := List.head?_eq_some_iff.1 hu
    exact h more' rfl
  · exact (fails_pairPart hhead).bind _

/-! ## Characters -/

theorem takes_stringChars_quote (fuel : Nat) (rest : List Char) :
    Takes (stringChars (fuel + 1)) ('"' :: rest) [] rest := by
  rw [stringChars]
  refine (takes_peek? _).bind_takes ?_
  exact (takes_drop _ rest).bind_takes (takes_pure _ rest)

/-- A character in front of others. -/
theorem gives_stringChars_plain {r : Option (List Char)} {mid : List Char} {fuel : Nat}
    (hc : IsPlain c) (h : Gives (stringChars fuel) rest r mid) :
    Gives (stringChars (fuel + 1)) (c :: rest) (r.map (c :: ·)) mid := by
  obtain ⟨hcontrol, hquote, hescape⟩ := hc
  have hnot : isControl c = false := by simpa [isControl] using hcontrol
  rw [stringChars]
  refine (takes_peek? _).bind ?_
  simp only [List.head?_cons, hnot, Bool.false_eq_true, if_false]
  exact (takes_drop c rest).bind h.map

theorem ne_u_of_shortEscape? (he : shortEscape? e = some c) : e ≠ 'u' := by
  rintro rfl
  cases he

theorem gives_stringChars_short {r : Option (List Char)} {mid : List Char} {fuel : Nat}
    (he : shortEscape? e = some c) (h : Gives (stringChars fuel) rest r mid) :
    Gives (stringChars (fuel + 1)) ('\\' :: e :: rest) (r.map (c :: ·)) mid := by
  have hu := ne_u_of_shortEscape? he
  rw [stringChars]
  refine (takes_peek? _).bind ?_
  refine (takes_drop _ _).bind ?_
  refine (takes_peek? _).bind ?_
  simp only [List.head?_cons, he]
  exact (takes_drop e rest).bind h.map

/-- The escape of a number in front of others. -/
theorem gives_stringChars_numeric {r : Option (List Char)} {mid more : List Char} {fuel : Nat}
    (hc : Takes numericEscape rest c mid) (h : Gives (stringChars fuel) mid r more) :
    Gives (stringChars (fuel + 1)) ('\\' :: 'u' :: rest) (r.map (c :: ·)) more := by
  rw [stringChars]
  refine (takes_peek? _).bind ?_
  refine (takes_drop _ _).bind ?_
  refine (takes_peek? _).bind ?_
  exact (takes_drop _ rest).bind (hc.bind h.map)

theorem fails_stringChars_numeric {fuel : Nat} (h : Fails numericEscape rest) :
    Fails (stringChars (fuel + 1)) ('\\' :: 'u' :: rest) := by
  rw [stringChars]
  refine (takes_peek? _).bind_fails ?_
  refine (takes_drop _ _).bind_fails ?_
  refine (takes_peek? _).bind_fails ?_
  exact (takes_drop _ rest).bind_fails (h.bind _)

/-- What is spelled is read. -/
theorem Spells.takes_stringChars (h : Spells cs s) :
    ∀ fuel rest, cs.length < fuel → Takes (stringChars fuel) (cs ++ '"' :: rest) s rest := by
  induction h with
  | nil =>
    intro fuel rest hfuel
    obtain ⟨fuel, rfl⟩ := Nat.exists_eq_add_one.2 hfuel
    exact takes_stringChars_quote fuel rest
  | plain hc _ ih =>
    intro fuel rest hfuel
    obtain ⟨fuel, rfl⟩ := Nat.exists_eq_add_one_of_ne_zero (Nat.ne_zero_of_lt hfuel)
    exact gives_stringChars_plain (r := some _) hc
      (ih fuel rest (by simpa using hfuel))
  | short he _ ih =>
    intro fuel rest hfuel
    obtain ⟨fuel, rfl⟩ := Nat.exists_eq_add_one_of_ne_zero (Nat.ne_zero_of_lt hfuel)
    exact gives_stringChars_short (r := some _) he
      (ih fuel rest (by simp at hfuel; omega))
  | @numeric n ds cs s hds hn _ ih =>
    intro fuel rest hfuel
    obtain ⟨fuel, rfl⟩ := Nat.exists_eq_add_one_of_ne_zero (Nat.ne_zero_of_lt hfuel)
    have htail := ih fuel rest (by simp at hfuel; omega)
    rw [List.cons_append, List.cons_append, List.append_assoc]
    exact gives_stringChars_numeric (r := some _) (takes_numericEscape hds hn _) htail
  | @pair n m ds es cs s hds hes hn hm _ ih =>
    intro fuel rest hfuel
    obtain ⟨fuel, rfl⟩ := Nat.exists_eq_add_one_of_ne_zero (Nat.ne_zero_of_lt hfuel)
    have htail := ih fuel rest (by simp at hfuel; omega)
    simp only [List.cons_append, List.append_assoc]
    exact gives_stringChars_numeric (r := some _)
      (takes_numericEscape_pair hds hes hn hm _) htail

/-- Behind the digits of an escape, a character is made of it and perhaps of the next escape, or
none is. -/
theorem IsBody.numericEscape_cases (hds : IsHex n ds) (h : IsBody cs) :
    (∃ c tail, IsBody tail ∧ tail.length ≤ cs.length ∧
      ∀ rest, Takes numericEscape (ds ++ (cs ++ '"' :: rest)) c (tail ++ '"' :: rest)) ∨
    ∀ rest, Fails numericEscape (ds ++ (cs ++ '"' :: rest)) := by
  by_cases hlow : 0xDC00 ≤ n ∧ n ≤ 0xDFFF
  · exact .inr fun rest => fails_numericEscape_low hds hlow _
  by_cases hhigh : 0xD800 ≤ n ∧ n ≤ 0xDBFF
  · cases h with
    | nil => exact .inr fun rest => fails_numericEscape_alone hds hhigh fun more => by simp
    | plain hc hcs =>
      exact .inr fun rest => fails_numericEscape_alone hds hhigh fun more => by simp [hc.2.2]
    | short he hcs =>
      exact .inr fun rest => fails_numericEscape_alone hds hhigh fun more => by
        simp [ne_u_of_shortEscape? he]
    | @numeric m es cs hes hcs =>
      by_cases hm : 0xDC00 ≤ m ∧ m ≤ 0xDFFF
      · refine .inl ⟨Char.ofNat ((n - 0xD800) * 0x400 + (m - 0xDC00) + 0x10000), cs, hcs,
          by simp; omega, fun rest => ?_⟩
        simp only [List.cons_append, List.append_assoc]
        exact takes_numericEscape_pair hds hes hhigh hm _
      · refine .inr fun rest => ?_
        simp only [List.cons_append, List.append_assoc]
        exact fails_numericEscape_pair hds hes hhigh (by omega) _
  · exact .inl ⟨_, cs, h, Nat.le_refl _, fun rest => takes_numericEscape hds (by omega) _⟩

/-- A string is read or it gives nothing, whatever follows it. -/
theorem IsBody.exists_gives_stringChars (h : IsBody cs) :
    ∃ r, ∀ fuel rest, cs.length < fuel →
      Gives (stringChars fuel) (cs ++ '"' :: rest) r rest := by
  -- a pair of escapes makes one character, so the induction is on the length
  induction hlength : cs.length using Nat.strongRecOn generalizing cs with
  | _ length ih =>
    subst hlength
    cases h with
    | nil =>
      refine ⟨some [], fun fuel rest hfuel => ?_⟩
      obtain ⟨fuel, rfl⟩ := Nat.exists_eq_add_one.2 hfuel
      exact takes_stringChars_quote fuel rest
    | @plain c cs hc hcs =>
      obtain ⟨r, hr⟩ := ih cs.length (by simp) hcs rfl
      refine ⟨r.map (c :: ·), fun fuel rest hfuel => ?_⟩
      obtain ⟨fuel, rfl⟩ := Nat.exists_eq_add_one_of_ne_zero (Nat.ne_zero_of_lt hfuel)
      exact gives_stringChars_plain hc (hr fuel rest (by simpa using hfuel))
    | @short e c cs he hcs =>
      have hlength : cs.length < ('\\' :: e :: cs).length := by
        simp only [List.length_cons]
        omega
      obtain ⟨r, hr⟩ := ih cs.length hlength hcs rfl
      refine ⟨r.map (c :: ·), fun fuel rest hfuel => ?_⟩
      obtain ⟨fuel, rfl⟩ := Nat.exists_eq_add_one_of_ne_zero (Nat.ne_zero_of_lt hfuel)
      exact gives_stringChars_short he (hr fuel rest (by simp at hfuel; omega))
    | @numeric n ds cs hds hcs =>
      rcases IsBody.numericEscape_cases hds hcs with ⟨c, tail, htail, hle, htakes⟩ | hfails
      · obtain ⟨r, hr⟩ := ih tail.length (by simp; omega) htail rfl
        refine ⟨r.map (c :: ·), fun fuel rest hfuel => ?_⟩
        obtain ⟨fuel, rfl⟩ := Nat.exists_eq_add_one_of_ne_zero (Nat.ne_zero_of_lt hfuel)
        rw [List.cons_append, List.cons_append, List.append_assoc]
        exact gives_stringChars_numeric (htakes rest) (hr fuel rest (by simp at hfuel; omega))
      · refine ⟨none, fun fuel rest hfuel => ?_⟩
        obtain ⟨fuel, rfl⟩ := Nat.exists_eq_add_one_of_ne_zero (Nat.ne_zero_of_lt hfuel)
        rw [List.cons_append, List.cons_append, List.append_assoc]
        exact fails_stringChars_numeric (hfails rest)

/-- What a string gives depends on its characters only. -/
theorem IsBody.exists_gives_stringBody (h : IsBody cs) :
    ∃ r, ∀ rest, Gives stringBody (cs ++ '"' :: rest) r rest := by
  obtain ⟨r, hr⟩ := h.exists_gives_stringChars
  exact ⟨r.map String.ofList, fun rest => (hr _ rest (by simp; omega)).fueled.map⟩

theorem Spells.takes_stringBody (h : Spells cs s) (rest : List Char) :
    Takes stringBody (cs ++ '"' :: rest) (String.ofList s) rest :=
  (Gives.fueled (r := some s) (h.takes_stringChars _ rest (by simp; omega))).map

/-! ## Passing over -/

theorem IsBody.takes_skipStringChars (h : IsBody cs) :
    ∀ fuel rest, cs.length < fuel → Takes (skipStringChars fuel) (cs ++ '"' :: rest) () rest := by
  induction h with
  | nil =>
    intro fuel rest hfuel
    obtain ⟨fuel, rfl⟩ := Nat.exists_eq_add_one.2 hfuel
    rw [skipStringChars]
    exact (takes_peek? _).bind_takes (takes_drop _ rest)
  | @plain c cs hc _ ih =>
    intro fuel rest hfuel
    obtain ⟨fuel, rfl⟩ := Nat.exists_eq_add_one_of_ne_zero (Nat.ne_zero_of_lt hfuel)
    obtain ⟨hcontrol, hquote, hescape⟩ := hc
    have hnot : isControl c = false := by simpa [isControl] using hcontrol
    rw [skipStringChars]
    refine (takes_peek? _).bind_takes ?_
    simp only [List.cons_append, List.head?_cons, hnot, Bool.false_eq_true, if_false]
    exact (takes_drop c _).bind_takes (ih fuel rest (by simpa using hfuel))
  | @short e c cs he _ ih =>
    intro fuel rest hfuel
    obtain ⟨fuel, rfl⟩ := Nat.exists_eq_add_one_of_ne_zero (Nat.ne_zero_of_lt hfuel)
    have hu := ne_u_of_shortEscape? he
    rw [skipStringChars, List.cons_append, List.cons_append]
    refine (takes_peek? _).bind_takes ?_
    refine (takes_drop _ _).bind_takes ?_
    refine (takes_peek? _).bind_takes ?_
    simp only [List.head?_cons, he, Option.isSome_some, if_true]
    exact (takes_drop e _).bind_takes (ih fuel rest (by simp at hfuel; omega))
  | @numeric n ds cs hds _ ih =>
    intro fuel rest hfuel
    obtain ⟨fuel, rfl⟩ := Nat.exists_eq_add_one_of_ne_zero (Nat.ne_zero_of_lt hfuel)
    have htail := ih fuel rest (by simp at hfuel; omega)
    rw [skipStringChars, List.cons_append, List.cons_append, List.append_assoc]
    refine (takes_peek? _).bind_takes ?_
    refine (takes_drop _ _).bind_takes ?_
    refine (takes_peek? _).bind_takes ?_
    refine (takes_drop _ _).bind_takes ?_
    exact (hds.takes_fourHex _).bind_takes htail

/-- Every string is passed over. -/
theorem IsBody.takes_skipString (h : IsBody cs) (rest : List Char) :
    Takes skipString (cs ++ '"' :: rest) () rest :=
  Gives.fueled (r := some ()) (h.takes_skipStringChars _ rest (by simp; omega))

theorem Spells.isBody (h : Spells cs s) : IsBody cs := by
  induction h with
  | nil => exact .nil
  | plain hc _ ih => exact .plain hc ih
  | short he _ ih => exact .short he ih
  | numeric hds _ _ ih => exact .numeric hds ih
  | pair hds hes _ _ _ ih => exact .numeric hds (.numeric hes ih)

/-- Characters that stand for themselves denote themselves. -/
theorem Spells.of_arePlain (h : ArePlain cs) : Spells cs cs := by
  induction cs with
  | nil => exact .nil
  | cons c cs ih =>
    obtain ⟨hc, hcs⟩ := List.forall_mem_cons.1 h
    exact .plain hc (ih hcs)

end CqlGlue.Json
