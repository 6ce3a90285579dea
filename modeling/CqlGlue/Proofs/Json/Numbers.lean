import CqlGlue.Proofs.Json.Grammar

/-!
# Reading numbers

A number is read up to where it ends, and what it gives depends on its characters only: on whether
they make a number that is in range, and on which. Passing over a number always ends behind it.

## Main statements
* `exists_gives_number`: what a number gives depends on its characters only.
* `takes_skipNumber`: every number is passed over.
-/

namespace CqlGlue.Json

open Decoder

variable {ds cs fraction exponent rest text : List Char} {c : Char} {n : Nat}

/-- No digit follows. -/
def NoDigit (rest : List Char) : Prop := ∀ c ∈ rest.head?, c.isDigit = false

/-- What ends a number is none of its characters. -/
theorem Ends.ne (h : Ends rest) (hc : c ∈ rest.head?) :
    c.isDigit = false ∧ c ≠ '.' ∧ c ≠ 'e' ∧ c ≠ 'E' := by
  rcases h c hc with hblank | hmark
  · rw [isJsonBlank] at hblank
    simp only [Bool.or_eq_true, beq_iff_eq] at hblank
    rcases hblank with ((rfl | rfl) | rfl) | rfl <;> decide
  · simp only [List.mem_cons, List.not_mem_nil, or_false] at hmark
    rcases hmark with rfl | rfl | rfl <;> decide

theorem Ends.noDigit (h : Ends rest) : NoDigit rest := fun _ hc => (h.ne hc).1

theorem takes_digitAhead (text : List Char) :
    Takes digitAhead text (text.head?.any Char.isDigit) text :=
  (takes_peek? text).bind_takes (takes_pure _ text)

theorem NoDigit.any_eq (h : NoDigit rest) : rest.head?.any Char.isDigit = false := by
  cases hrest : rest.head? with
  | none => rfl
  | some c => exact h c hrest

theorem takes_digits (hds : ∀ d ∈ ds, d.isDigit = true) (h : NoDigit rest) :
    Takes (takeWhile Char.isDigit) (ds ++ rest) ds rest :=
  takes_takeWhile hds h

/-- The significand is made of the digits that fit, as many as there are. -/
theorem exists_takes_significand (hds : ∀ d ∈ ds, d.isDigit = true) (n count : Nat) :
    ∃ m used more, ds = used ++ more ∧ ∀ fuel rest, ds.length < fuel → NoDigit rest →
      Takes (significand fuel n count) (ds ++ rest) (m, count + used.length) (more ++ rest) := by
  induction ds generalizing n count with
  | nil =>
    refine ⟨n, [], [], rfl, fun fuel rest hfuel hrest => ?_⟩
    obtain ⟨fuel, rfl⟩ := Nat.exists_eq_add_one_of_ne_zero (Nat.ne_zero_of_lt hfuel)
    rw [significand]
    refine (takes_peek? _).bind_takes ?_
    cases hhead : rest.head? with
    | none =>
      simp only [List.nil_append, hhead]
      exact takes_pure _ rest
    | some c =>
      simp only [List.nil_append, hhead, hrest c hhead, Bool.false_and, Bool.false_eq_true,
        if_false]
      exact takes_pure _ rest
  | cons d ds ih =>
    have hd := hds d (List.mem_cons_self ..)
    by_cases hfits : n * 10 + (d.toNat - 48) ≤ largest
    · obtain ⟨m, used, more, rfl, htakes⟩ := ih (fun x hx => hds x (List.mem_cons_of_mem _ hx))
        (n * 10 + (d.toNat - 48)) (count + 1)
      refine ⟨m, d :: used, more, rfl, fun fuel rest hfuel hrest => ?_⟩
      obtain ⟨fuel, rfl⟩ := Nat.exists_eq_add_one_of_ne_zero (Nat.ne_zero_of_lt hfuel)
      rw [significand, List.cons_append]
      refine (takes_peek? _).bind_takes ?_
      simp only [List.head?_cons, hd, hfits, decide_true, Bool.and_self, if_true]
      refine (takes_drop d _).bind_takes ?_
      have hcount : count + (d :: used).length = count + 1 + used.length := by
        simp only [List.length_cons]
        omega
      rw [hcount]
      exact htakes fuel rest (by simpa using hfuel) hrest
    · refine ⟨n, [], d :: ds, rfl, fun fuel rest hfuel hrest => ?_⟩
      obtain ⟨fuel, rfl⟩ := Nat.exists_eq_add_one_of_ne_zero (Nat.ne_zero_of_lt hfuel)
      rw [significand, List.cons_append]
      refine (takes_peek? _).bind_takes ?_
      simp only [List.head?_cons, hd, hfits, decide_false, Bool.and_false, Bool.false_eq_true,
        if_false]
      exact takes_pure _ _

/-- A scaled significand is in range or not, whatever text follows. -/
theorem isStill_scaled (positive : Bool) (n : Nat) (e : Int) : IsStill (scaled positive n e) := by
  rw [scaled]
  split
  · exact (isStill_pure _).bind fun r => isStill_pure _
  split
  · refine iteInduction (fun _ => ?_) fun _ => ?_
    · exact (isStill_failHere _).bind fun r => isStill_pure _
    · exact (isStill_pure _).bind fun r => isStill_pure _
  split
  · exact (isStill_pure _).bind fun r => isStill_pure _
  · exact (isStill_failHere _).bind fun r => isStill_pure _

/-! ## Where a number goes on -/

/-- Goes on with an exponent or without one. -/
def atMark {α : Type} (mark none : Decoder α) : Decoder α := do
  match ← peek? with
  | some 'e' | some 'E' => mark
  | _ => none

/-- Goes on with a fraction, with an exponent or without either. -/
def atPoint {α : Type} (point mark none : Decoder α) : Decoder α := do
  match ← peek? with
  | some '.' => point
  | some 'e' | some 'E' => mark
  | _ => none

section

variable {α : Type} {point mark none : Decoder α} {r : Option α}

theorem gives_atMark_mark (hc : c ∈ ['e', 'E']) (h : Gives mark (c :: text) r rest) :
    Gives (atMark mark none) (c :: text) r rest := by
  refine (takes_peek? _).bind ?_
  simp only [List.mem_cons, List.not_mem_nil, or_false] at hc
  rcases hc with rfl | rfl
  · exact h
  · exact h

theorem gives_atMark_none (hrest : Ends rest) (h : Gives none rest r rest) :
    Gives (atMark mark none) rest r rest := by
  refine (takes_peek? _).bind ?_
  split
  next hhead => exact absurd rfl (hrest.ne hhead).2.2.1
  next hhead => exact absurd rfl (hrest.ne hhead).2.2.2
  next => exact h

theorem gives_atPoint_point (h : Gives point ('.' :: text) r rest) :
    Gives (atPoint point mark none) ('.' :: text) r rest :=
  (takes_peek? _).bind h

theorem gives_atPoint_mark (hc : c ∈ ['e', 'E']) (h : Gives mark (c :: text) r rest) :
    Gives (atPoint point mark none) (c :: text) r rest := by
  refine (takes_peek? _).bind ?_
  simp only [List.mem_cons, List.not_mem_nil, or_false] at hc
  rcases hc with rfl | rfl
  · exact h
  · exact h

theorem gives_atPoint_none (hrest : Ends rest) (h : Gives none rest r rest) :
    Gives (atPoint point mark none) rest r rest := by
  refine (takes_peek? _).bind ?_
  split
  next hhead => exact absurd rfl (hrest.ne hhead).2.1
  next hhead => exact absurd rfl (hrest.ne hhead).2.2.1
  next hhead => exact absurd rfl (hrest.ne hhead).2.2.2
  next => exact h

end

/-! ## Exponents -/

theorem exists_takes_exponentDigits (hds : ∀ d ∈ ds, d.isDigit = true) :
    ∃ e, ∀ rest, NoDigit rest → Takes exponentDigits (ds ++ rest) e rest :=
  ⟨_, fun rest hrest => (takes_digits hds hrest).bind_takes (takes_pure _ rest)⟩

/-- A number from its exponent on, behind the mark and the sign. -/
theorem exists_gives_exponent (hds : IsDigits ds) (positive up : Bool) (n : Nat) (start : Int) :
    ∃ r, ∀ rest, NoDigit rest →
      Gives (do
        match ← peek? with
        | none => failHere .endOfValue
        | some c =>
          if !c.isDigit then failAhead .invalidNumber
          else
            let before ← get
            match ← exponentDigits with
            | some e => scaled positive n (if up then start + e else start - e)
            | none =>
              if n != 0 && up then
                failAt .numberOutOfRange (withExponent.overflowPlace before.place
                  (before.rest.takeWhile Char.isDigit))
              else return if positive then 0.0 else -0.0) (ds ++ rest) r rest := by
  obtain ⟨hne, hdigits⟩ := hds
  obtain ⟨d, ds, rfl⟩ := List.exists_cons_of_ne_nil hne
  obtain ⟨e, he⟩ := exists_takes_exponentDigits hdigits
  have hd := hdigits d (List.mem_cons_self ..)
  cases e with
  | some e =>
    obtain ⟨r, hr⟩ := isStill_scaled positive n (if up then start + e else start - e)
    refine ⟨r, fun rest hrest => ?_⟩
    refine (takes_peek? _).bind ?_
    simp only [List.cons_append, List.head?_cons, hd, Bool.not_true, Bool.false_eq_true, if_false]
    exact gives_get_bind fun place => (he rest hrest).bind (hr rest)
  | none =>
    cases hover : n != 0 && up with
    | true =>
      refine ⟨none, fun rest hrest => ?_⟩
      refine (takes_peek? _).bind ?_
      simp only [List.cons_append, List.head?_cons, hd, Bool.not_true, Bool.false_eq_true, if_false,
        if_true]
      exact gives_get_bind fun place => (he rest hrest).bind_fails (fails_failAt _ _ rest)
    | false =>
      refine ⟨some (if positive then 0.0 else -0.0), fun rest hrest => ?_⟩
      refine (takes_peek? _).bind ?_
      simp only [List.cons_append, List.head?_cons, hd, Bool.not_true, Bool.false_eq_true, if_false]
      exact gives_get_bind fun place => (he rest hrest).bind_takes (takes_pure _ rest)

/-- A number from its exponent mark on. -/
theorem exists_gives_withExponent {mark : Char} {sign : List Char}
    (hsign : sign ∈ [[], ['+'], ['-']]) (hds : IsDigits ds) (positive : Bool) (n : Nat)
    (start : Int) :
    ∃ r, ∀ rest, NoDigit rest →
      Gives (withExponent positive n start) (mark :: (sign ++ (ds ++ rest))) r rest := by
  simp only [List.mem_cons, List.not_mem_nil, or_false] at hsign
  rw [withExponent]
  rcases hsign with rfl | rfl | rfl
  · obtain ⟨d, ds, rfl⟩ := List.exists_cons_of_ne_nil hds.1
    have hd := hds.2 d (List.mem_cons_self ..)
    obtain ⟨r, hr⟩ := exists_gives_exponent hds positive true n start
    refine ⟨r, fun rest hrest => (takes_drop _ _).bind ((takes_peek? _).bind ?_)⟩
    simp only [List.nil_append, List.cons_append, List.head?_cons]
    split
    next hplus =>
      cases hplus
      cases hd
    next hminus =>
      cases hminus
      cases hd
    next => exact (takes_pure true _).bind (hr rest hrest)
  · obtain ⟨r, hr⟩ := exists_gives_exponent hds positive true n start
    refine ⟨r, fun rest hrest => (takes_drop _ _).bind ((takes_peek? _).bind ?_)⟩
    exact (takes_drop _ _).bind ((takes_pure true _).bind (hr rest hrest))
  · obtain ⟨r, hr⟩ := exists_gives_exponent hds positive false n start
    refine ⟨r, fun rest hrest => (takes_drop _ _).bind ((takes_peek? _).bind ?_)⟩
    exact (takes_drop _ _).bind ((takes_pure false _).bind (hr rest hrest))

/-! ## Fractions -/

/-- A number from behind the digits of its fraction on. -/
theorem exists_gives_afterFraction (h : IsExponent exponent) (positive : Bool) (n : Nat) (e : Int) :
    ∃ r, ∀ rest, Ends rest → Gives (afterFraction positive n e) (exponent ++ rest) r rest := by
  change ∃ r, ∀ rest, Ends rest →
    Gives (atMark (withExponent positive n e) (scaled positive n e)) (exponent ++ rest) r rest
  rcases h with rfl | ⟨mark, hmark, sign, hsign, ds, hds, rfl⟩
  · obtain ⟨r, hr⟩ := isStill_scaled positive n e
    exact ⟨r, fun rest hrest => gives_atMark_none hrest (hr rest)⟩
  · obtain ⟨r, hr⟩ := exists_gives_withExponent hsign hds positive n e
    refine ⟨r, fun rest hrest => ?_⟩
    rw [List.cons_append, List.append_assoc]
    exact gives_atMark_mark hmark (hr rest hrest.noDigit)

/-- What may follow the digits of a number is no digit. -/
theorem noDigit_exponent (h : IsExponent exponent) (hrest : Ends rest) :
    NoDigit (exponent ++ rest) := by
  rcases h with rfl | ⟨mark, hmark, sign, hsign, ds, hds, rfl⟩
  · exact hrest.noDigit
  · intro c hc
    cases hc
    simp only [List.mem_cons, List.not_mem_nil, or_false] at hmark
    rcases hmark with rfl | rfl <;> decide

/-- A number from its point on. -/
theorem exists_gives_withFraction (hds : IsDigits ds) (h : IsExponent exponent) (positive : Bool)
    (n : Nat) (start : Int) :
    ∃ r, ∀ rest, Ends rest →
      Gives (withFraction positive n start) ('.' :: (ds ++ (exponent ++ rest))) r rest := by
  obtain ⟨hne, hdigits⟩ := hds
  obtain ⟨m, used, more, hsplit, htakes⟩ := exists_takes_significand hdigits n 0
  obtain ⟨r, hr⟩ := exists_gives_afterFraction h positive m (start - (0 + used.length : Nat))
  refine ⟨r, fun rest hrest => ?_⟩
  have hnext := noDigit_exponent h hrest
  rw [withFraction]
  refine (takes_drop _ _).bind ?_
  have hsignificand := htakes (2 * (ds ++ (exponent ++ rest)).length + 8) (exponent ++ rest)
    (by simp; omega) hnext
  refine Takes.bind (Gives.fueled (r := some _) hsignificand) ?_
  refine (takes_digitAhead _).bind ?_
  cases more with
  | nil =>
    have hused : used.length ≠ 0 := by
      rw [List.append_nil] at hsplit
      rw [← hsplit]
      exact fun h => hne (List.length_eq_zero_iff.1 h)
    rw [List.nil_append, hnext.any_eq]
    simp only [Bool.false_eq_true, if_false, Nat.zero_add, if_neg hused]
    rw [Nat.zero_add] at hr
    exact hr rest hrest
  | cons d more =>
    have hmore : ∀ x ∈ d :: more, x.isDigit = true := fun x hx =>
      hdigits x (hsplit ▸ List.mem_append_right _ hx)
    have hd := hmore d (List.mem_cons_self ..)
    simp only [List.cons_append, List.head?_cons, Option.any_some, hd, if_true]
    exact (takes_digits hmore hnext).bind (hr rest hrest)

/-! ## Whole numbers -/

/-- What goes on behind the digits before the point depends on the character there. -/
theorem exists_gives_atPoint {α : Type} (hfraction : IsFraction fraction)
    (hexponent : IsExponent exponent) {point mark none : Decoder α}
    (hpoint : ∀ ds, IsDigits ds → ∃ r, ∀ rest, Ends rest →
      Gives point ('.' :: (ds ++ (exponent ++ rest))) r rest)
    (hmark : ∀ m sign ds, sign ∈ [[], ['+'], ['-']] → IsDigits ds →
      ∃ r, ∀ rest, NoDigit rest → Gives mark (m :: (sign ++ (ds ++ rest))) r rest)
    (hnone : IsStill none) :
    ∃ r, ∀ rest, Ends rest →
      Gives (atPoint point mark none) (fraction ++ (exponent ++ rest)) r rest := by
  rcases hfraction with rfl | ⟨ds, hds, rfl⟩
  · rcases hexponent with rfl | ⟨m, hm, sign, hsign, ds, hds, rfl⟩
    · obtain ⟨r, hr⟩ := hnone
      exact ⟨r, fun rest hrest => gives_atPoint_none hrest (hr rest)⟩
    · obtain ⟨r, hr⟩ := hmark m sign ds hsign hds
      refine ⟨r, fun rest hrest => ?_⟩
      rw [List.nil_append, List.cons_append, List.append_assoc]
      exact gives_atPoint_mark hm (hr rest hrest.noDigit)
  · obtain ⟨r, hr⟩ := hpoint ds hds
    exact ⟨r, fun rest hrest => gives_atPoint_point (hr rest hrest)⟩

/-- What may follow the digits before the point is no digit. -/
theorem noDigit_tail (hfraction : IsFraction fraction) (hexponent : IsExponent exponent)
    (hrest : Ends rest) : NoDigit (fraction ++ (exponent ++ rest)) := by
  rcases hfraction with rfl | ⟨ds, hds, rfl⟩
  · rw [List.nil_append]
    exact noDigit_exponent hexponent hrest
  · intro c hc
    cases hc
    rfl

theorem exists_gives_longInteger (hds : ∀ d ∈ ds, d.isDigit = true)
    (hfraction : IsFraction fraction) (hexponent : IsExponent exponent) (positive : Bool)
    (n : Nat) :
    ∃ r, ∀ rest, Ends rest →
      Gives (longInteger positive n) (ds ++ (fraction ++ (exponent ++ rest))) r rest := by
  obtain ⟨r, hr⟩ := exists_gives_atPoint hfraction hexponent
    (fun es hes => exists_gives_withFraction hes hexponent positive n ds.length)
    (fun m sign es hsign hes => exists_gives_withExponent hsign hes positive n ds.length)
    (isStill_scaled positive n ds.length)
  refine ⟨r, fun rest hrest => ?_⟩
  rw [longInteger]
  exact (takes_digits hds (noDigit_tail hfraction hexponent hrest)).bind (hr rest hrest)

/-- A number behind the digits that fit. -/
theorem exists_gives_afterInteger (hds : ∀ d ∈ ds, d.isDigit = true)
    (hfraction : IsFraction fraction) (hexponent : IsExponent exponent) (positive : Bool)
    (n : Nat) :
    ∃ r, ∀ rest, Ends rest →
      Gives (do
        if ← digitAhead then return .float (← longInteger positive n)
        else
          match ← peek? with
          | some '.' => return .float (← withFraction positive n 0)
          | some 'e' | some 'E' => return .float (← withExponent positive n 0)
          | _ =>
            if positive then return .natural n
            else if n = 0 || n > Value.signedLimit then return .float (-n.toUInt64.toFloat)
            else return .negative (-n) : Decoder Number)
        (ds ++ (fraction ++ (exponent ++ rest))) r rest := by
  cases ds with
  | nil =>
    have hnone : IsStill (if positive then pure (.natural n)
        else if n = 0 || n > Value.signedLimit then pure (.float (-n.toUInt64.toFloat))
        else pure (.negative (-n)) : Decoder Number) := by
      refine iteInduction (fun _ => isStill_pure _) fun _ => ?_
      exact iteInduction (fun _ => isStill_pure _) fun _ => isStill_pure _
    obtain ⟨r, hr⟩ := exists_gives_atPoint hfraction hexponent
      (fun es hes => by
        obtain ⟨r, hr⟩ := exists_gives_withFraction hes hexponent positive n 0
        exact ⟨r.map Number.float, fun rest hrest => (hr rest hrest).map⟩)
      (fun m sign es hsign hes => by
        obtain ⟨r, hr⟩ := exists_gives_withExponent hsign hes positive n 0
        exact ⟨r.map Number.float, fun rest hrest => (hr rest hrest).map⟩) hnone
    refine ⟨r, fun rest hrest => (takes_digitAhead _).bind ?_⟩
    rw [List.nil_append, (noDigit_tail hfraction hexponent hrest).any_eq]
    simp only [Bool.false_eq_true, if_false]
    exact hr rest hrest
  | cons d ds =>
    obtain ⟨r, hr⟩ := exists_gives_longInteger hds hfraction hexponent positive n
    refine ⟨r.map Number.float, fun rest hrest => (takes_digitAhead _).bind ?_⟩
    simp only [List.cons_append, List.head?_cons, Option.any_some, hds d (List.mem_cons_self ..),
      if_true]
    exact (hr rest hrest).map

/-- What a number gives depends on its characters only. -/
theorem exists_gives_number (hds : IsInteger ds) (hfraction : IsFraction fraction)
    (hexponent : IsExponent exponent) (positive : Bool) :
    ∃ r, ∀ rest, Ends rest →
      Gives (number positive) (ds ++ (fraction ++ (exponent ++ rest))) r rest := by
  obtain ⟨⟨hne, hdigits⟩, hzero⟩ := hds
  obtain ⟨d, ds, rfl⟩ := List.exists_cons_of_ne_nil hne
  have hd := hdigits d (List.mem_cons_self ..)
  rw [number]
  by_cases hd0 : d = '0'
  · subst hd0
    have hnil : ∀ x ∈ ([] : List Char), x.isDigit = true := nofun
    obtain ⟨r, hr⟩ := exists_gives_afterInteger hnil hfraction hexponent positive 0
    refine ⟨r, fun rest hrest => (takes_peek? _).bind ?_⟩
    cases hzero rfl
    simp only [List.cons_append, List.nil_append, List.head?_cons, hd, Bool.not_true,
      Bool.false_eq_true, if_false, if_true]
    refine (takes_drop _ _).bind ((takes_digitAhead _).bind ?_)
    rw [(noDigit_tail hfraction hexponent hrest).any_eq]
    simp only [Bool.false_eq_true, if_false]
    exact (takes_pure 0 _).bind (hr rest hrest)
  · obtain ⟨n, used, more, hsplit, htakes⟩ := exists_takes_significand hdigits 0 0
    obtain ⟨r, hr⟩ := exists_gives_afterInteger (fun x hx => hdigits x (hsplit ▸
      List.mem_append_right _ hx)) hfraction hexponent positive n
    refine ⟨r, fun rest hrest => (takes_peek? _).bind ?_⟩
    simp only [List.cons_append, List.head?_cons, hd, Bool.not_true, Bool.false_eq_true, if_false,
      if_neg hd0]
    have hsignificand := htakes (2 * (d :: ds ++ (fraction ++ (exponent ++ rest))).length + 8)
      (fraction ++ (exponent ++ rest)) (by simp; omega) (noDigit_tail hfraction hexponent hrest)
    refine Takes.bind (Gives.fueled (r := some _) hsignificand) ?_
    exact (takes_pure n _).bind (hr rest hrest)

/-! ## Passing over -/

/-- The digits of an exponent are passed over. -/
theorem takes_skipDigits (hds : IsDigits ds) (hrest : NoDigit rest) :
    Takes (do
      if ← digitAhead then
        let _ ← takeWhile Char.isDigit
      else failAhead .invalidNumber) (ds ++ rest) () rest := by
  obtain ⟨d, es, rfl⟩ := List.exists_cons_of_ne_nil hds.1
  have hd := hds.2 d (List.mem_cons_self ..)
  refine (takes_digitAhead _).bind_takes ?_
  simp only [List.cons_append, List.head?_cons, Option.any_some, hd, if_true]
  exact (takes_digits hds.2 hrest).bind_takes (takes_pure () rest)

theorem takes_skipExponent {mark : Char} {sign : List Char} (hsign : sign ∈ [[], ['+'], ['-']])
    (hds : IsDigits ds) (hrest : NoDigit rest) :
    Takes skipExponent (mark :: (sign ++ (ds ++ rest))) () rest := by
  have hdigits := takes_skipDigits hds hrest
  simp only [List.mem_cons, List.not_mem_nil, or_false] at hsign
  rw [skipExponent]
  refine (takes_drop _ _).bind_takes ((takes_peek? _).bind_takes ?_)
  rcases hsign with rfl | rfl | rfl
  · obtain ⟨d, ds, rfl⟩ := List.exists_cons_of_ne_nil hds.1
    have hd := hds.2 d (List.mem_cons_self ..)
    simp only [List.nil_append, List.cons_append, List.head?_cons]
    split
    next hplus =>
      cases hplus
      cases hd
    next hminus =>
      cases hminus
      cases hd
    next => exact hdigits
  · exact (takes_drop _ _).bind_takes hdigits
  · exact (takes_drop _ _).bind_takes hdigits

theorem takes_skipFraction (hds : IsDigits ds) (hexponent : IsExponent exponent)
    (hrest : Ends rest) :
    Takes skipFraction ('.' :: (ds ++ (exponent ++ rest))) () rest := by
  have hempty : ds.isEmpty = false := by simpa using hds.1
  rw [skipFraction]
  refine (takes_drop _ _).bind_takes ?_
  refine (takes_digits hds.2 (noDigit_exponent hexponent hrest)).bind_takes ?_
  simp only [hempty, Bool.false_eq_true, if_false]
  change Gives (atMark skipExponent (pure ())) (exponent ++ rest) (some ()) rest
  rcases hexponent with rfl | ⟨mark, hmark, sign, hsign, es, hes, rfl⟩
  · exact gives_atMark_none hrest (takes_pure () rest)
  · rw [List.cons_append, List.append_assoc]
    exact gives_atMark_mark hmark (takes_skipExponent hsign hes hrest.noDigit)

/-- A number is passed over from behind its digits before the point on. -/
theorem takes_skipTail (hfraction : IsFraction fraction) (hexponent : IsExponent exponent)
    (hrest : Ends rest) :
    Takes (atPoint skipFraction skipExponent (pure ())) (fraction ++ (exponent ++ rest)) ()
      rest := by
  rcases hfraction with rfl | ⟨ds, hds, rfl⟩
  · rcases hexponent with rfl | ⟨m, hm, sign, hsign, ds, hds, rfl⟩
    · exact gives_atPoint_none (r := some ()) hrest (takes_pure () rest)
    · rw [List.nil_append, List.cons_append, List.append_assoc]
      exact gives_atPoint_mark (r := some ()) hm (takes_skipExponent hsign hds hrest.noDigit)
  · exact gives_atPoint_point (r := some ()) (takes_skipFraction hds hexponent hrest)

/-- Every number is passed over. -/
theorem takes_skipNumber (hds : IsInteger ds) (hfraction : IsFraction fraction)
    (hexponent : IsExponent exponent) (hrest : Ends rest) :
    Takes skipNumber (ds ++ (fraction ++ (exponent ++ rest))) () rest := by
  obtain ⟨⟨hne, hdigits⟩, hzero⟩ := hds
  obtain ⟨d, es, rfl⟩ := List.exists_cons_of_ne_nil hne
  have hd := hdigits d (List.mem_cons_self ..)
  have hnext := noDigit_tail hfraction hexponent hrest
  have htail := takes_skipTail hfraction hexponent hrest
  rw [skipNumber]
  refine (takes_peek? _).bind_takes ?_
  by_cases hd0 : d = '0'
  · subst hd0
    cases hzero rfl
    rw [List.cons_append, List.nil_append]
    refine (takes_drop _ _).bind_takes ((takes_digitAhead _).bind_takes ?_)
    rw [hnext.any_eq]
    exact htail
  · simp only [List.cons_append, List.head?_cons, hd, if_true]
    exact (takes_digits hdigits hnext).bind_takes htail

end CqlGlue.Json
