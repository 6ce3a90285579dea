import CqlGlue.Proofs.Json.Brackets
import CqlGlue.Proofs.Json.Numbers
import CqlGlue.Proofs.Json.Strings

/-!
# Reading values

What a value gives depends on its text only, whatever stands around it: either it is read up to
its end or it gives nothing. Passing over a value always ends behind it.

## Main definitions
* `Reads` says what a decoder makes of a text, whatever stands around it.

## Main statements
* `IsValue.exists_reads_value`: every value is read or it gives nothing.
* `IsValue.reads_skipValue`: every value is passed over.
-/

namespace CqlGlue.Json

open Decoder

variable {α : Type} {v b rest : List Char} {r : Option α}

/-- What a decoder makes of a text, with blanks before it and whatever may follow a value. -/
def Reads (d : Decoder α) (v : List Char) (r : Option α) : Prop :=
  ∀ b rest, IsBlanks b → Ends rest → Gives d (b ++ (v ++ rest)) r rest

theorem Reads.given_eq {d : Decoder α} (h : Reads d v r) : given d v = r := by
  have hgives := h [] [] isBlanks_nil nofun
  rw [List.nil_append, List.append_nil] at hgives
  exact hgives.given_eq

/-! ## Lengths -/

theorem length_le_tailText (texts : List (List Char)) :
    texts.length ≤ (tailText texts).length := by
  induction texts with
  | nil => exact Nat.le_refl 0
  | cons t ts ih =>
    rw [tailText, List.flatMap_cons, ← tailText, List.length_append, List.length_cons,
      List.length_cons]
    omega

/-- Every text after the first has a comma to it. -/
theorem length_add_length_le_tailText {texts : List (List Char)} {t : List Char} (ht : t ∈ texts) :
    t.length + texts.length ≤ (tailText texts).length := by
  induction texts with
  | nil => cases ht
  | cons x xs ih =>
    have hlength := length_le_tailText xs
    rw [tailText, List.flatMap_cons, ← tailText, List.length_append, List.length_cons,
      List.length_cons]
    rcases List.mem_cons.1 ht with rfl | ht
    · omega
    · have := ih ht
      omega

/-- A text between two brackets and the number of all leave one character at least. -/
theorem length_add_length_le {texts : List (List Char)} {t : List Char} (ht : t ∈ texts)
    (blanks : List Char) : t.length + texts.length ≤ (innerText texts blanks).length + 1 := by
  cases texts with
  | nil => cases ht
  | cons x xs =>
    have hlength := length_le_tailText xs
    rw [innerText, List.length_append, List.length_cons]
    rcases List.mem_cons.1 ht with rfl | ht
    · omega
    · have := length_add_length_le_tailText ht
      omega

theorem length_le (texts : List (List Char)) (blanks : List Char) :
    texts.length ≤ (innerText texts blanks).length + 1 := by
  cases texts with
  | nil => exact Nat.zero_le _
  | cons x xs =>
    have hlength := length_le_tailText xs
    rw [innerText, List.length_append, List.length_cons]
    omega

/-! ## Values without brackets -/

theorem digit_ne {c : Char} (h : c.isDigit = true) :
    isJsonBlank c = false ∧ c ≠ 'n' ∧ c ≠ 't' ∧ c ≠ 'f' ∧ c ≠ '-' ∧ c ≠ '"' ∧ c ≠ '[' ∧
      c ≠ '\x7b' := by
  refine ⟨(IsStart.not_mem (.inr h)).1, ?_, ?_, ?_, ?_, ?_, ?_, ?_⟩ <;>
  · rintro rfl
    cases h

variable {depth fuel : Nat}

theorem reads_valueWith_null :
    Reads (valueWith (fuel + 1) depth) ['n', 'u', 'l', 'l'] (some .null) := by
  intro b rest hb _
  rw [valueWith]
  refine (takes_peekToken? hb (by decide) _).bind ((takes_drop _ _).bind ?_)
  exact (takes_ident ['u', 'l', 'l'] rest).bind (takes_pure _ rest)

theorem reads_valueWith_true :
    Reads (valueWith (fuel + 1) depth) ['t', 'r', 'u', 'e'] (some (.bool true)) := by
  intro b rest hb _
  rw [valueWith]
  refine (takes_peekToken? hb (by decide) _).bind ((takes_drop _ _).bind ?_)
  exact (takes_ident ['r', 'u', 'e'] rest).bind (takes_pure _ rest)

theorem reads_valueWith_false :
    Reads (valueWith (fuel + 1) depth) ['f', 'a', 'l', 's', 'e'] (some (.bool false)) := by
  intro b rest hb _
  rw [valueWith]
  refine (takes_peekToken? hb (by decide) _).bind ((takes_drop _ _).bind ?_)
  exact (takes_ident ['a', 'l', 's', 'e'] rest).bind (takes_pure _ rest)

theorem exists_reads_valueWith_number {sign ds fraction exponent : List Char}
    (hsign : sign ∈ [[], ['-']]) (hds : IsInteger ds) (hfraction : IsFraction fraction)
    (hexponent : IsExponent exponent) :
    ∃ r, ∀ fuel depth, Reads (valueWith (fuel + 1) depth)
      (sign ++ (ds ++ (fraction ++ exponent))) r := by
  simp only [List.mem_cons, List.not_mem_nil, or_false] at hsign
  rcases hsign with rfl | rfl
  · obtain ⟨r, hr⟩ := exists_gives_number hds hfraction hexponent true
    refine ⟨r.map .number, fun fuel depth b rest hb hrest => ?_⟩
    have hnumber := hr rest hrest
    obtain ⟨d, es, rfl⟩ := List.exists_cons_of_ne_nil hds.1.1
    have hd := hds.1.2 d (List.mem_cons_self ..)
    obtain ⟨hblank, hn, ht, hf, hminus, hquote, hbracket, hbrace⟩ := digit_ne hd
    rw [valueWith]
    simp only [List.nil_append, List.cons_append, List.append_assoc] at hnumber ⊢
    refine (takes_peekToken? hb hblank _).bind ?_
    simp only [hd, if_true]
    exact hnumber.map
  · obtain ⟨r, hr⟩ := exists_gives_number hds hfraction hexponent false
    refine ⟨r.map .number, fun fuel depth b rest hb hrest => ?_⟩
    have hnumber := hr rest hrest
    rw [valueWith]
    simp only [List.nil_append, List.cons_append, List.append_assoc]
    refine (takes_peekToken? hb (by decide) _).bind ((takes_drop _ _).bind ?_)
    exact hnumber.map

theorem exists_reads_valueWith_text {body : List Char} (hbody : IsBody body) :
    ∃ r, ∀ fuel depth, Reads (valueWith (fuel + 1) depth) ('"' :: (body ++ ['"'])) r := by
  obtain ⟨r, hr⟩ := hbody.exists_gives_stringBody
  refine ⟨r.map .text, fun fuel depth b rest hb hrest => ?_⟩
  rw [valueWith]
  simp only [List.nil_append, List.cons_append, List.append_assoc]
  refine (takes_peekToken? hb (by decide) _).bind ((takes_drop _ _).bind ?_)
  exact (hr rest).map

/-! ## Values with brackets -/

/-- Brackets are entered above the limit of nesting only. -/
theorem gives_nested {body : Nat → Decoder α} {text : List Char} (depth : Nat)
    (h : Gives (body (depth + 1)) text r rest) : Gives (nested (depth + 2) body) text r rest := h

theorem fails_nested (body : Nat → Decoder α) (hdepth : depth < 2) (text : List Char) :
    Fails (nested depth body) text := by
  match depth, hdepth with
  | 0, _ => exact fails_failAhead _ text
  | 1, _ => exact fails_failAhead _ text

/-- Brackets are read above the limit of nesting only. -/
theorem reads_valueWith_of_lt (hdepth : depth < 2) {c : Char} (hc : c ∈ ['[', '\x7b'])
    (cs : List Char) : Reads (valueWith (fuel + 1) depth) (c :: cs) none := by
  intro b rest hb _
  rw [valueWith]
  simp only [List.mem_cons, List.not_mem_nil, or_false] at hc
  rcases hc with rfl | rfl
  · exact (takes_peekToken? hb (by decide) _).bind_fails (fails_nested _ hdepth _)
  · exact (takes_peekToken? hb (by decide) _).bind_fails (fails_nested _ hdepth _)

/-- Fuel enough for a text that is not empty is one step at least. -/
theorem reads_valueWith_of_succ {r : Option Value} (hv : v ≠ [])
    (h : ∀ fuel, 2 * v.length ≤ fuel + 1 → Reads (valueWith (fuel + 1) depth) v r) :
    ∀ fuel, 2 * v.length ≤ fuel → Reads (valueWith fuel depth) v r := by
  intro fuel hfuel
  have hpositive := List.length_pos_iff.2 hv
  obtain ⟨fuel, rfl⟩ := Nat.exists_eq_add_one_of_ne_zero (show fuel ≠ 0 by omega)
  exact h fuel hfuel

/-- The items of a list are read up to the closing bracket. -/
theorem exists_gives_elementsWith {xs : List Item} {blanks : List Char} (hblanks : IsBlanks blanks)
    (hspaced : ∀ x ∈ xs, x.IsSpaced) (hvalue : ∀ x ∈ xs, IsValue x.value)
    (hreads : ∀ x ∈ xs, ∃ r, ∀ fuel, 2 * x.value.length ≤ fuel →
      Reads (valueWith fuel depth) x.value r) :
    ∃ r, ∀ fuel rest, 2 * (innerText (xs.map Item.text) blanks).length + 2 < fuel →
      Gives (elementsWith fuel depth true) (innerText (xs.map Item.text) blanks ++ ']' :: rest) r
        (']' :: rest) := by
  choose! act hact using hreads
  refine ⟨xs.mapM act, fun fuel rest hfuel => ?_⟩
  have hlength := length_le (xs.map Item.text) blanks
  rw [List.length_map] at hlength
  -- fuel for the longest item is left when the last one is reached
  let least := 2 * (innerText (xs.map Item.text) blanks).length + 2 - xs.length
  have hitem : ∀ x ∈ xs, ∀ fuel rest, least ≤ fuel → Ends rest →
      Gives (valueWith fuel depth) (x.value ++ rest) (act x) rest := by
    intro x hx fuel rest hleast hrest
    have hle := length_add_length_le (List.mem_map_of_mem (f := Item.text) hx) blanks
    simp only [Item.text, List.length_append, List.length_map] at hle
    exact hact x hx fuel (by omega) [] rest isBlanks_nil hrest
  have henough : least + xs.length < fuel := by omega
  rw [innerText_eq]
  exact gives_elements (fun fuel first => elementsWith fuel depth first)
    (fun fuel first => by rw [elementsWith]) hspaced hvalue hitem hblanks henough rest

theorem exists_reads_valueWith_list {xs : List Item} {blanks : List Char}
    (hblanks : IsBlanks blanks) (hspaced : ∀ x ∈ xs, x.IsSpaced)
    (hvalue : ∀ x ∈ xs, IsValue x.value)
    (ih : ∀ x ∈ xs, ∀ depth, ∃ r, ∀ fuel, 2 * x.value.length ≤ fuel →
      Reads (valueWith fuel depth) x.value r) (depth : Nat) :
    ∃ r, ∀ fuel, 2 * (listText xs blanks).length ≤ fuel →
      Reads (valueWith fuel depth) (listText xs blanks) r := by
  match depth with
  | 0 | 1 =>
    exact ⟨none, reads_valueWith_of_succ (List.cons_ne_nil _ _) fun fuel _ =>
      reads_valueWith_of_lt (by decide) (by decide) _⟩
  | depth + 2 =>
    obtain ⟨r, hr⟩ := exists_gives_elementsWith hblanks hspaced hvalue
      fun x hx => ih x hx (depth + 1)
    refine ⟨r.map .array, reads_valueWith_of_succ (List.cons_ne_nil _ _)
      fun fuel hfuel b rest hb _ => ?_⟩
    simp only [listText, List.length_cons, List.length_append, List.length_nil] at hfuel
    have helements := hr fuel rest (by omega)
    rw [valueWith]
    simp only [listText, List.cons_append, List.append_assoc, List.nil_append]
    refine (takes_peekToken? hb (by decide) _).bind (gives_nested depth ?_)
    refine (takes_drop _ _).bind ?_
    exact (helements.bracketed (takes_endList isBlanks_nil rest)).map

/-- A member from behind its opening quote on, put to others. -/
def memberWith (depth fuel : Nat) (members : List (String × Value)) :
    Decoder (List (String × Value)) := do
  let key ← stringBody
  colon
  let v ← valueWith fuel depth
  return Value.member key v members

theorem membersWith_eq (depth fuel : Nat) (first : Bool) (members : List (String × Value)) :
    membersWith (fuel + 1) depth first members = do
      if ← nextMember? first then
        drop
        membersWith fuel depth false (← memberWith depth fuel members)
      else return members := by
  rw [membersWith]
  simp only [memberWith, bind_assoc, pure_bind]

/-- The members of an object are read up to the closing bracket. -/
theorem exists_gives_membersWith {ms : List Member} {blanks : List Char} (hblanks : IsBlanks blanks)
    (hspaced : ∀ m ∈ ms, m.IsSpaced) (hkeys : ∀ m ∈ ms, IsBody m.key)
    (hreads : ∀ m ∈ ms, ∃ r, ∀ fuel, 2 * m.item.value.length ≤ fuel →
      Reads (valueWith fuel depth) m.item.value r) :
    ∃ r, ∀ fuel rest, 2 * (innerText (ms.map Member.text) blanks).length + 2 < fuel →
      Gives (membersWith fuel depth true [])
        (innerText (ms.map Member.text) blanks ++ '\x7d' :: rest) r ('\x7d' :: rest) := by
  have hname : ∀ m ∈ ms, ∃ r, ∀ rest, Gives stringBody (m.key ++ '"' :: rest) r rest :=
    fun m hm => (hkeys m hm).exists_gives_stringBody
  choose! act hact using hreads
  choose! name hname using hname
  let entry (m : Member) (members : List (String × Value)) : Option (List (String × Value)) :=
    (name m).bind fun key => (act m).bind fun v => some (Value.member key v members)
  refine ⟨ms.foldlM (fun members m => entry m members) [], fun fuel rest hfuel => ?_⟩
  have hlength := length_le (ms.map Member.text) blanks
  rw [List.length_map] at hlength
  let least := 2 * (innerText (ms.map Member.text) blanks).length + 2 - ms.length
  have hentry : ∀ m ∈ ms, ∀ fuel members rest, least ≤ fuel → Ends rest →
      Gives (memberWith depth fuel members)
        (m.key ++ ('"' :: (m.after ++ (':' :: (m.item.before ++ (m.item.value ++ rest))))))
        (entry m members) rest := by
    intro m hm fuel members rest hleast hrest
    have hle := length_add_length_le (List.mem_map_of_mem (f := Member.text) hm) blanks
    simp only [Member.text, Item.text, List.length_append, List.length_cons, List.length_map]
      at hle
    refine (hname m hm _).bind fun key _ => ?_
    refine (takes_colon (hspaced m hm).after _).bind ?_
    refine Gives.bind ?_ fun v _ => takes_pure _ rest
    exact hact m hm fuel (by omega) _ rest (hspaced m hm).item.before hrest
  have henough : least + ms.length < fuel := by omega
  rw [innerText_eq]
  exact gives_members (fun fuel first members => membersWith fuel depth first members)
    (fun fuel first members => membersWith_eq depth fuel first members) hspaced hentry hblanks
    henough [] rest

theorem exists_reads_valueWith_object {ms : List Member} {blanks : List Char}
    (hblanks : IsBlanks blanks) (hspaced : ∀ m ∈ ms, m.IsSpaced)
    (hkeys : ∀ m ∈ ms, IsBody m.key)
    (ih : ∀ m ∈ ms, ∀ depth, ∃ r, ∀ fuel, 2 * m.item.value.length ≤ fuel →
      Reads (valueWith fuel depth) m.item.value r) (depth : Nat) :
    ∃ r, ∀ fuel, 2 * (objectText ms blanks).length ≤ fuel →
      Reads (valueWith fuel depth) (objectText ms blanks) r := by
  match depth with
  | 0 | 1 =>
    exact ⟨none, reads_valueWith_of_succ (List.cons_ne_nil _ _) fun fuel _ =>
      reads_valueWith_of_lt (by decide) (by decide) _⟩
  | depth + 2 =>
    obtain ⟨r, hr⟩ := exists_gives_membersWith hblanks hspaced hkeys
      fun m hm => ih m hm (depth + 1)
    refine ⟨r.map .object, reads_valueWith_of_succ (List.cons_ne_nil _ _)
      fun fuel hfuel b rest hb _ => ?_⟩
    simp only [objectText, List.length_cons, List.length_append, List.length_nil] at hfuel
    have hmembers := hr fuel rest (by omega)
    rw [valueWith]
    simp only [objectText, List.cons_append, List.append_assoc, List.nil_append]
    refine (takes_peekToken? hb (by decide) _).bind (gives_nested depth ?_)
    refine (takes_drop _ _).bind ?_
    exact (hmembers.bracketed (takes_endObject rest)).map

/-- A value is read or gives nothing, whatever stands around it, where there is fuel enough. -/
theorem IsValue.exists_reads_valueWith (h : IsValue v) :
    ∀ depth, ∃ r, ∀ fuel, 2 * v.length ≤ fuel → Reads (valueWith fuel depth) v r := by
  induction h with
  | null =>
    exact fun depth => ⟨_, reads_valueWith_of_succ (by decide) fun _ _ => reads_valueWith_null⟩
  | yes =>
    exact fun depth => ⟨_, reads_valueWith_of_succ (by decide) fun _ _ => reads_valueWith_true⟩
  | no =>
    exact fun depth => ⟨_, reads_valueWith_of_succ (by decide) fun _ _ => reads_valueWith_false⟩
  | number hsign hds hfraction hexponent =>
    obtain ⟨r, hr⟩ := exists_reads_valueWith_number hsign hds hfraction hexponent
    exact fun depth =>
      ⟨r, reads_valueWith_of_succ (by simp [hds.1.1]) fun fuel _ => hr fuel depth⟩
  | text hbody =>
    obtain ⟨r, hr⟩ := exists_reads_valueWith_text hbody
    exact fun depth =>
      ⟨r, reads_valueWith_of_succ (List.cons_ne_nil _ _) fun fuel _ => hr fuel depth⟩
  | list hblanks hspaced hvalue ih => exact exists_reads_valueWith_list hblanks hspaced hvalue ih
  | object hblanks hspaced hkeys _ ih =>
    exact exists_reads_valueWith_object hblanks hspaced hkeys ih

/-- What a value gives depends on its text only. -/
theorem IsValue.exists_reads_value (h : IsValue v) (depth : Nat) :
    ∃ r, Reads (value depth) v r := by
  obtain ⟨r, hr⟩ := h.exists_reads_valueWith depth
  exact ⟨r, fun b rest hb hrest => Gives.fueled (hr _ (by simp; omega) b rest hb hrest)⟩

end CqlGlue.Json
