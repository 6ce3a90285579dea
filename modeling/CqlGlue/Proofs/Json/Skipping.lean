import CqlGlue.Proofs.Json.Values

/-!
# Passing over values

A value that no one asks for is passed over up to its end, however deep it is and whatever its
strings and numbers are. The brackets that are open are kept in a list, so passing over a value
goes on with what follows it, and the fuel that a value takes is bounded by its length.

## Main definitions
* `Becomes` says that a run goes on as another.
* `IsSkipped` says that what stands between two commas is passed over.

## Main statements
* `IsValue.reads_skipValue`: every value is passed over.
-/

namespace CqlGlue.Json

open Decoder

variable {α : Type} {b v rest text text' text'' : List Char} {d d' d'' : Decoder α}
  {frame : Frame} {outer : List Frame}

/-- A run on a text goes on as another run on another text. -/
def Becomes (d : Decoder α) (text : List Char) (d' : Decoder α) (text' : List Char) : Prop :=
  ∀ place, ∃ place', d ⟨text, place⟩ = d' ⟨text', place'⟩

theorem Becomes.trans (h : Becomes d text d' text') (h' : Becomes d' text' d'' text'') :
    Becomes d text d'' text'' := by
  intro place
  obtain ⟨place', hplace'⟩ := h place
  obtain ⟨place'', hplace''⟩ := h' place'
  exact ⟨place'', hplace'.trans hplace''⟩

theorem becomes_bind {β : Type} {a : β} {e : Decoder β} {f : β → Decoder α}
    (h : Takes e text a text') : Becomes (e >>= f) text (f a) text' := by
  intro place
  obtain ⟨place', hplace'⟩ := h place
  exact ⟨place', bind_apply hplace'⟩

/-- What stands between two commas is passed over, with some blanks at most left. -/
def IsSkipped (frame : Frame) (core : List Char) : Prop :=
  (∃ c cs, core = c :: cs ∧ isJsonBlank c = false ∧ c ≠ frame.close) ∧
    ∀ outer b more fuel, IsBlanks b → Ends more → 4 * core.length + 1 ≤ fuel →
      ∃ fuel' after, IsBlanks after ∧ fuel ≤ fuel' + (4 * core.length + 1) ∧
        Becomes (skipElement fuel frame outer) (b ++ (core ++ more))
          (skipAfter fuel' (frame :: outer)) (after ++ more)

theorem close_mem (frame : Frame) : frame.close ∈ [']', '\x7d'] := by
  cases frame <;> decide

theorem becomes_skipAfter_close (hb : IsBlanks b) (fuel : Nat) (rest : List Char) :
    Becomes (skipAfter (fuel + 1) (frame :: outer)) (b ++ frame.close :: rest)
      (skipAfter fuel outer) rest := by
  rw [skipAfter]
  refine (becomes_bind (takes_peekToken? hb (by cases frame <;> decide) rest)).trans ?_
  have hcomma : frame.close ≠ ',' := by cases frame <;> decide
  simp only [if_neg hcomma, if_true]
  exact becomes_bind (takes_drop _ rest)

theorem becomes_skipAfter_comma (hb : IsBlanks b) (fuel : Nat) (rest : List Char) :
    Becomes (skipAfter (fuel + 1) (frame :: outer)) (b ++ ',' :: rest)
      (skipElement fuel frame outer) rest := by
  rw [skipAfter]
  exact (becomes_bind (takes_peekToken? hb (by decide) rest)).trans
    (becomes_bind (takes_drop _ rest))

/-- What stands between a comma and the closing bracket is passed over. -/
theorem becomes_skipElement {pieces : List (List Char × List Char)} {core : List Char}
    (hcore : IsSkipped frame core)
    (hpieces : ∀ p ∈ pieces, IsBlanks p.1 ∧ IsSkipped frame p.2) (outer : List Frame)
    (rest : List Char) :
    ∀ b fuel, IsBlanks b →
      4 * (core.length + 1) + 4 * (tailText (pieces.map fun p => p.1 ++ p.2)).length ≤ fuel →
      ∃ fuel', fuel ≤ fuel' +
          (4 * (core.length + 1) + 4 * (tailText (pieces.map fun p => p.1 ++ p.2)).length) ∧
        Becomes (skipElement fuel frame outer)
          (b ++ (core ++ (tailText (pieces.map fun p => p.1 ++ p.2) ++ frame.close :: rest)))
          (skipAfter fuel' outer) rest := by
  induction pieces generalizing core with
  | nil =>
    intro b fuel hb hfuel
    obtain ⟨fuel', after, hafter, hle, hbecomes⟩ := hcore.2 outer b (frame.close :: rest) fuel hb
      (ends_cons (List.mem_cons_of_mem _ (close_mem frame)) rest) (by omega)
    obtain ⟨fuel', rfl⟩ := Nat.exists_eq_add_one_of_ne_zero (show fuel' ≠ 0 by omega)
    exact ⟨fuel', by omega, hbecomes.trans (becomes_skipAfter_close hafter fuel' rest)⟩
  | cons p ps ih =>
    intro b fuel hb hfuel
    simp only [List.forall_mem_cons] at hpieces
    have htail : tailText ((p :: ps).map fun p => p.1 ++ p.2) ++ frame.close :: rest =
        ',' :: (p.1 ++ (p.2 ++
          (tailText (ps.map fun p => p.1 ++ p.2) ++ frame.close :: rest))) := by
      simp [tailText]
    have hlength : (tailText ((p :: ps).map fun p => p.1 ++ p.2)).length =
        1 + p.1.length + p.2.length + (tailText (ps.map fun p => p.1 ++ p.2)).length := by
      simp [tailText]
      omega
    rw [hlength] at hfuel ⊢
    rw [htail]
    obtain ⟨fuel', after, hafter, hle, hbecomes⟩ := hcore.2 outer b _ fuel hb
      (ends_cons (c := ',') (by decide) _) (by omega)
    obtain ⟨fuel', rfl⟩ := Nat.exists_eq_add_one_of_ne_zero (show fuel' ≠ 0 by omega)
    obtain ⟨fuel'', hle', hbecomes'⟩ := ih hpieces.1.2 hpieces.2 p.1 fuel' hpieces.1.1 (by omega)
    refine ⟨fuel'', by omega, hbecomes.trans ?_⟩
    exact (becomes_skipAfter_comma hafter fuel' _).trans hbecomes'

/-- What stands between two brackets is passed over. -/
theorem becomes_skipFirst {pieces : List (List Char × List Char)} {blanks : List Char}
    (hblanks : IsBlanks blanks) (hpieces : ∀ p ∈ pieces, IsBlanks p.1 ∧ IsSkipped frame p.2)
    (outer : List Frame) (rest : List Char) (fuel : Nat)
    (hfuel : 4 * (innerText (pieces.map fun p => p.1 ++ p.2) blanks).length + 5 ≤ fuel) :
    ∃ fuel', fuel ≤ fuel' +
        (4 * (innerText (pieces.map fun p => p.1 ++ p.2) blanks).length + 5) ∧
      Becomes (skipFirst fuel frame outer)
        (innerText (pieces.map fun p => p.1 ++ p.2) blanks ++ frame.close :: rest)
        (skipAfter fuel' outer) rest := by
  obtain ⟨fuel, rfl⟩ := Nat.exists_eq_add_one_of_ne_zero (show fuel ≠ 0 by omega)
  cases pieces with
  | nil =>
    refine ⟨fuel, by omega, ?_⟩
    rw [skipFirst]
    refine (becomes_bind (takes_peekToken? hblanks (by cases frame <;> decide) rest)).trans ?_
    simp only [if_true]
    exact becomes_bind (takes_drop _ rest)
  | cons p ps =>
    simp only [List.forall_mem_cons] at hpieces
    obtain ⟨⟨c, cs, hcs, hc, hclose⟩, -⟩ := hpieces.1.2
    have hlength : (innerText ((p :: ps).map fun p => p.1 ++ p.2) blanks).length =
        p.1.length + p.2.length + (tailText (ps.map fun p => p.1 ++ p.2)).length := by
      simp [innerText]
      omega
    have htext : innerText ((p :: ps).map fun p => p.1 ++ p.2) blanks ++ frame.close :: rest =
        p.1 ++ (p.2 ++ (tailText (ps.map fun p => p.1 ++ p.2) ++ frame.close :: rest)) := by
      simp [innerText]
    rw [hlength] at hfuel ⊢
    rw [htext]
    obtain ⟨fuel', hle, hbecomes⟩ := becomes_skipElement hpieces.1.2 hpieces.2 outer rest [] fuel
      isBlanks_nil (by omega)
    refine ⟨fuel', by omega, ?_⟩
    rw [List.nil_append] at hbecomes
    rw [skipFirst]
    rw [hcs, List.cons_append] at hbecomes ⊢
    refine (becomes_bind (takes_peekToken? hpieces.1.1 hc _)).trans ?_
    simp only [if_neg hclose]
    exact hbecomes

/-! ## Values -/

/-- A value is passed over, and the fuel it takes is bounded by its length. -/
def IsSkippedValue (v : List Char) : Prop :=
  ∀ outer b rest fuel, IsBlanks b → Ends rest → 4 * v.length ≤ fuel →
    ∃ fuel', fuel ≤ fuel' + 4 * v.length ∧
      Becomes (skipValueWith fuel outer) (b ++ (v ++ rest)) (skipAfter fuel' outer) rest

/-- An item of a list, without the blanks before it. -/
theorem isSkipped_item {x : Item} (hx : x.IsSpaced) (hv : IsValue x.value)
    (h : IsSkippedValue x.value) : IsSkipped .list (x.value ++ x.after) := by
  obtain ⟨c, cs, hcs, hc⟩ := hv.exists_cons
  obtain ⟨hblank, -, hbracket, -⟩ := hc.not_mem
  refine ⟨⟨c, cs ++ x.after, by rw [hcs, List.cons_append], hblank, hbracket⟩, ?_⟩
  intro outer b more fuel hb hmore hfuel
  obtain ⟨fuel, rfl⟩ := Nat.exists_eq_add_one_of_ne_zero (show fuel ≠ 0 by omega)
  rw [List.length_append] at hfuel ⊢
  obtain ⟨fuel', hle, hbecomes⟩ := h (.list :: outer) b (x.after ++ more) fuel hb
    (.of_blanks hx.after hmore) (by omega)
  refine ⟨fuel', x.after, hx.after, by omega, ?_⟩
  rw [skipElement, List.append_assoc]
  exact hbecomes

/-- A member of an object, without the blanks before it. -/
theorem isSkipped_member {m : Member} (hm : m.IsSpaced) (hkey : IsBody m.key)
    (h : IsSkippedValue m.item.value) :
    IsSkipped .object ('"' :: (m.key ++ ('"' :: (m.after ++ (':' :: m.item.text))))) := by
  refine ⟨⟨'"', _, rfl, by decide, by decide⟩, ?_⟩
  intro outer b more fuel hb hmore hfuel
  obtain ⟨fuel, rfl⟩ := Nat.exists_eq_add_one_of_ne_zero (show fuel ≠ 0 by omega)
  simp only [Item.text, List.length_cons, List.length_append] at hfuel ⊢
  obtain ⟨fuel', hle, hbecomes⟩ := h (.object :: outer) m.item.before (m.item.after ++ more) fuel
    hm.item.before (.of_blanks hm.item.after hmore) (by omega)
  refine ⟨fuel', m.item.after, hm.item.after, by omega, ?_⟩
  rw [skipElement]
  simp only [List.cons_append, List.append_assoc]
  refine (becomes_bind (takes_peekToken? hb (by decide) _)).trans ?_
  refine (becomes_bind (takes_drop _ _)).trans ?_
  refine (becomes_bind (hkey.takes_skipString _)).trans ?_
  refine (becomes_bind (takes_peekToken? hm.after (by decide) _)).trans ?_
  exact (becomes_bind (takes_drop _ _)).trans hbecomes

/-- A value without brackets takes one step. -/
theorem isSkippedValue_of_becomes (hv : v ≠ [])
    (h : ∀ outer b rest fuel, IsBlanks b → Ends rest →
      Becomes (skipValueWith (fuel + 1) outer) (b ++ (v ++ rest)) (skipAfter fuel outer) rest) :
    IsSkippedValue v := by
  intro outer b rest fuel hb hrest hfuel
  have hpositive := List.length_pos_iff.2 hv
  obtain ⟨fuel, rfl⟩ := Nat.exists_eq_add_one_of_ne_zero (show fuel ≠ 0 by omega)
  exact ⟨fuel, by omega, h outer b rest fuel hb hrest⟩

theorem isSkippedValue_number {sign ds fraction exponent : List Char} (hsign : sign ∈ [[], ['-']])
    (hds : IsInteger ds) (hfraction : IsFraction fraction) (hexponent : IsExponent exponent) :
    IsSkippedValue (sign ++ (ds ++ (fraction ++ exponent))) := by
  refine isSkippedValue_of_becomes (by simp [hds.1.1]) fun outer b rest fuel hb hrest => ?_
  have hnumber := takes_skipNumber hds hfraction hexponent hrest
  simp only [List.mem_cons, List.not_mem_nil, or_false] at hsign
  rcases hsign with rfl | rfl
  · obtain ⟨d, es, rfl⟩ := List.exists_cons_of_ne_nil hds.1.1
    have hd := hds.1.2 d (List.mem_cons_self ..)
    obtain ⟨hblank, hn, ht, hf, hminus, hquote, hbracket, hbrace⟩ := digit_ne hd
    rw [skipValueWith]
    simp only [List.nil_append, List.cons_append, List.append_assoc] at hnumber ⊢
    refine (becomes_bind (takes_peekToken? hb hblank _)).trans ?_
    simp only [hd, if_true]
    exact becomes_bind hnumber
  · rw [skipValueWith]
    simp only [List.nil_append, List.cons_append, List.append_assoc]
    refine (becomes_bind (takes_peekToken? hb (by decide) _)).trans ?_
    exact (becomes_bind (takes_drop _ _)).trans (becomes_bind hnumber)

variable (frame) in
/-- What stands in brackets takes one step for the opening one and as many as its pieces do. -/
theorem isSkippedValue_bracketed {opening : Char} {pieces : List (List Char × List Char)}
    {blanks : List Char} (hblanks : IsBlanks blanks)
    (hpieces : ∀ p ∈ pieces, IsBlanks p.1 ∧ IsSkipped frame p.2)
    (hopening : ∀ fuel outer b text, IsBlanks b → Becomes (skipValueWith (fuel + 1) outer)
      (b ++ opening :: text) (skipFirst fuel frame outer) text) :
    IsSkippedValue
      (opening :: (innerText (pieces.map fun p => p.1 ++ p.2) blanks ++ [frame.close])) := by
  intro outer b rest fuel hb hrest hfuel
  simp only [List.length_cons, List.length_append, List.length_nil] at hfuel ⊢
  obtain ⟨fuel, rfl⟩ := Nat.exists_eq_add_one_of_ne_zero (show fuel ≠ 0 by omega)
  obtain ⟨fuel', hle, hbecomes⟩ := becomes_skipFirst hblanks hpieces outer rest fuel
    (by omega)
  refine ⟨fuel', by omega, ?_⟩
  simp only [List.cons_append, List.append_assoc, List.nil_append]
  exact (hopening fuel outer b _ hb).trans hbecomes

theorem isSkippedValue_list {xs : List Item} {blanks : List Char} (hblanks : IsBlanks blanks)
    (hspaced : ∀ x ∈ xs, x.IsSpaced) (hvalue : ∀ x ∈ xs, IsValue x.value)
    (ih : ∀ x ∈ xs, IsSkippedValue x.value) : IsSkippedValue (listText xs blanks) := by
  have htexts : xs.map Item.text =
      (xs.map fun x => (x.before, x.value ++ x.after)).map fun p => p.1 ++ p.2 := by
    simp [Item.text, Function.comp_def]
  rw [listText, htexts]
  refine isSkippedValue_bracketed .list hblanks (List.forall_mem_map.2 fun x hx => ?_)
    fun fuel outer b text hb => ?_
  · exact ⟨(hspaced x hx).before, isSkipped_item (hspaced x hx) (hvalue x hx) (ih x hx)⟩
  · rw [skipValueWith]
    exact (becomes_bind (takes_peekToken? hb (by decide) _)).trans (becomes_bind (takes_drop _ _))

theorem isSkippedValue_object {ms : List Member} {blanks : List Char} (hblanks : IsBlanks blanks)
    (hspaced : ∀ m ∈ ms, m.IsSpaced) (hkeys : ∀ m ∈ ms, IsBody m.key)
    (ih : ∀ m ∈ ms, IsSkippedValue m.item.value) : IsSkippedValue (objectText ms blanks) := by
  have htexts : ms.map Member.text = (ms.map fun m => (m.before,
      '"' :: (m.key ++ ('"' :: (m.after ++ (':' :: m.item.text)))))).map fun p => p.1 ++ p.2 := by
    simp [Member.text, Function.comp_def]
  rw [objectText, htexts]
  refine isSkippedValue_bracketed .object hblanks (List.forall_mem_map.2 fun m hm => ?_)
    fun fuel outer b text hb => ?_
  · exact ⟨(hspaced m hm).before, isSkipped_member (hspaced m hm) (hkeys m hm) (ih m hm)⟩
  · rw [skipValueWith]
    exact (becomes_bind (takes_peekToken? hb (by decide) _)).trans (becomes_bind (takes_drop _ _))

theorem IsValue.isSkippedValue (h : IsValue v) : IsSkippedValue v := by
  induction h with
  | null =>
    refine isSkippedValue_of_becomes (by decide) fun outer b rest fuel hb _ => ?_
    rw [skipValueWith]
    refine (becomes_bind (takes_peekToken? hb (by decide) _)).trans ?_
    exact (becomes_bind (takes_drop _ _)).trans (becomes_bind (takes_ident ['u', 'l', 'l'] rest))
  | yes =>
    refine isSkippedValue_of_becomes (by decide) fun outer b rest fuel hb _ => ?_
    rw [skipValueWith]
    refine (becomes_bind (takes_peekToken? hb (by decide) _)).trans ?_
    exact (becomes_bind (takes_drop _ _)).trans (becomes_bind (takes_ident ['r', 'u', 'e'] rest))
  | no =>
    refine isSkippedValue_of_becomes (by decide) fun outer b rest fuel hb _ => ?_
    rw [skipValueWith]
    refine (becomes_bind (takes_peekToken? hb (by decide) _)).trans ?_
    exact (becomes_bind (takes_drop _ _)).trans
      (becomes_bind (takes_ident ['a', 'l', 's', 'e'] rest))
  | number hsign hds hfraction hexponent =>
    exact isSkippedValue_number hsign hds hfraction hexponent
  | text hbody =>
    refine isSkippedValue_of_becomes (List.cons_ne_nil _ _) fun outer b rest fuel hb _ => ?_
    rw [skipValueWith]
    simp only [List.cons_append, List.append_assoc, List.nil_append]
    refine (becomes_bind (takes_peekToken? hb (by decide) _)).trans ?_
    exact (becomes_bind (takes_drop _ _)).trans (becomes_bind (hbody.takes_skipString rest))
  | list hblanks hspaced hvalue ih => exact isSkippedValue_list hblanks hspaced hvalue ih
  | object hblanks hspaced hkeys _ ih => exact isSkippedValue_object hblanks hspaced hkeys ih

/-- Every value is passed over. -/
theorem IsValue.reads_skipValue (h : IsValue v) : Reads skipValue v (some ()) := by
  intro b rest hb hrest place
  obtain ⟨fuel, -, hbecomes⟩ := h.isSkippedValue [] b rest (4 * (b ++ (v ++ rest)).length + 8) hb
    hrest (by simp; omega)
  obtain ⟨place', hplace'⟩ := hbecomes place
  refine ⟨place', ?_⟩
  rw [skipValue, hplace', skipAfter]
  rfl

end CqlGlue.Json
