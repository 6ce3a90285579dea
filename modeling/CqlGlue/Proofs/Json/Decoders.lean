import CqlGlue.Proofs.Json.Values

/-!
# Reading values of a known shape

A text, a word, a flag, an optional value and a list are read from a value or give nothing, and
which of both, and what, depends on the text of the value only. A value of another kind gives
nothing.

## Main statements
* `IsValue.exists_reads_text`, `IsValue.exists_reads_word`, `IsValue.exists_reads_flag`: single
  values.
* `Reads.nullable`: a value or `null`.
* `reads_list`: what a list gives, by what its items give.
-/

namespace CqlGlue.Json

open Decoder

variable {α β : Type} {v b rest text cs : List Char} {c : Char} {d : Decoder α} {depth : Nat}

/-! ## The kinds of values -/

/-- A value that begins like `null`, like a string or like an object is one. -/
theorem IsValue.cases_cons (h : IsValue (c :: cs)) :
    c ∉ ['n', '"', '\x7b'] ∨ (c = 'n' ∧ cs = ['u', 'l', 'l']) ∨
      (c = '"' ∧ ∃ body, IsBody body ∧ cs = body ++ ['"']) ∨
      (c = '\x7b' ∧ ∃ (ms : List Member) (blanks : List Char), IsBlanks blanks ∧
        (∀ m ∈ ms, m.IsSpaced ∧ IsBody m.key ∧ IsValue m.item.value) ∧
        cs = innerText (ms.map Member.text) blanks ++ ['\x7d']) := by
  generalize hv : c :: cs = v at h
  cases h with
  | null =>
    cases hv
    exact .inr (.inl ⟨rfl, rfl⟩)
  | yes =>
    cases hv
    exact .inl (by decide)
  | no =>
    cases hv
    exact .inl (by decide)
  | @number sign ds fraction exponent hsign hds _ _ =>
    simp only [List.mem_cons, List.not_mem_nil, or_false] at hsign
    rcases hsign with rfl | rfl
    · obtain ⟨x, es, rfl⟩ := List.exists_cons_of_ne_nil hds.1.1
      cases hv
      obtain ⟨-, hn, -, -, -, hquote, -, hbrace⟩ := digit_ne (hds.1.2 _ (List.mem_cons_self ..))
      exact .inl (by simp [hn, hquote, hbrace])
    · cases hv
      exact .inl (by decide)
  | text hbody =>
    cases hv
    exact .inr (.inr (.inl ⟨rfl, _, hbody, rfl⟩))
  | list =>
    cases hv
    exact .inl (by decide)
  | object hblanks hspaced hkeys hms =>
    cases hv
    exact .inr (.inr (.inr ⟨rfl, _, _, hblanks,
      fun m hm => ⟨hspaced m hm, hkeys m hm, hms m hm⟩, rfl⟩))

theorem IsValue.eq_null (h : IsValue ('n' :: cs)) : cs = ['u', 'l', 'l'] := by
  obtain hnot | ⟨-, h⟩ | ⟨hc, -⟩ | ⟨hc, -⟩ := h.cases_cons
  · simp at hnot
  · exact h
  · cases hc
  · cases hc

theorem IsValue.exists_body (h : IsValue ('"' :: cs)) :
    ∃ body, IsBody body ∧ cs = body ++ ['"'] := by
  obtain hnot | ⟨hc, -⟩ | ⟨-, h⟩ | ⟨hc, -⟩ := h.cases_cons
  · simp at hnot
  · cases hc
  · exact h
  · cases hc

theorem IsValue.exists_members (h : IsValue ('\x7b' :: cs)) :
    ∃ (ms : List Member) (blanks : List Char), IsBlanks blanks ∧
      (∀ m ∈ ms, m.IsSpaced ∧ IsBody m.key ∧ IsValue m.item.value) ∧
      cs = innerText (ms.map Member.text) blanks ++ ['\x7d'] := by
  obtain hnot | ⟨hc, -⟩ | ⟨hc, -⟩ | ⟨-, h⟩ := h.cases_cons
  · simp at hnot
  · cases hc
  · cases hc
  · exact h

/-! ## Values of another kind -/

/-- What ends with a fault fails, whatever happens before. -/
theorem fails_bind {f : α → Decoder β} (hf : ∀ a text, Fails (f a) text) (d : Decoder α)
    (text : List Char) : Fails (d >>= f) text := by
  intro place
  cases hd : d ⟨text, place⟩ with
  | ok a i =>
    obtain ⟨fault, j, hfails⟩ := hf a i.rest i.place
    exact ⟨fault, j, (bind_apply hd).trans hfails⟩
  | error fault j => exact ⟨fault, j, bind_apply_error hd⟩

theorem fails_wrongKind (expected : String) (text : List Char) :
    Fails (wrongKind expected : Decoder α) text := by
  have hliteral : ∀ (cs : List Char) (cause : Cause),
      Fails (do drop; ident cs; failShape cause : Decoder α) text :=
    fun cs cause => fails_bind (fun _ => fails_bind (fun _ => fails_failShape cause) _) _ text
  refine Fails.placed ((takes_peek? text).bind_fails ?_)
  split
  · exact hliteral _ _
  · exact hliteral _ _
  · exact hliteral _ _
  · exact fails_bind (fun _ => fails_bind (fun _ => fails_failShape _) _) _ text
  · exact fails_bind (fun _ => fails_bind (fun _ => fails_failShape _) _) _ text
  · exact fails_failShape _ text
  · exact fails_failShape _ text
  · split
    · exact fails_bind (fun _ => fails_failShape _) _ text
    · exact fails_failAhead _ text
  · exact fails_failAhead _ text

/-! ## Strings, words and flags -/

/-- A value that does not begin like a string is none. -/
theorem reads_textAs_of_ne (hc : IsStart c) (hquote : c ≠ '"') (expected : String)
    (cs : List Char) : Reads (textAs expected) (c :: cs) none := by
  intro b rest hb _
  refine (takes_peekToken? hb hc.not_mem.1 _).bind_fails ?_
  simp only
  exact fails_wrongKind _ _

theorem IsBody.exists_gives_textAs {body : List Char} (h : IsBody body) (expected : String) :
    ∃ r, ∀ b rest, IsBlanks b →
      Gives (textAs expected) (b ++ '"' :: (body ++ '"' :: rest)) r rest := by
  obtain ⟨r, hr⟩ := h.exists_gives_stringBody
  refine ⟨r, fun b rest hb => ?_⟩
  exact (takes_peekToken? hb (by decide) _).bind ((takes_drop _ _).bind (hr rest))

theorem IsValue.exists_reads_text (h : IsValue v) : ∃ r, Reads Decoder.text v r := by
  obtain ⟨c, cs, rfl, hc⟩ := h.exists_cons
  by_cases hquote : c = '"'
  · subst hquote
    obtain ⟨body, hbody, rfl⟩ := h.exists_body
    obtain ⟨r, hr⟩ := hbody.exists_gives_textAs "a string"
    refine ⟨r, fun b rest hb _ => ?_⟩
    simp only [List.cons_append, List.append_assoc, List.nil_append]
    exact hr b rest hb
  · exact ⟨none, reads_textAs_of_ne hc hquote "a string" cs⟩

theorem IsValue.exists_reads_unit (h : IsValue v) : ∃ r, Reads Decoder.unit v r := by
  obtain ⟨c, cs, rfl, hc⟩ := h.exists_cons
  by_cases hn : c = 'n'
  · subst hn
    cases h.eq_null
    refine ⟨some (), fun b rest hb _ => ?_⟩
    exact (takes_peekToken? hb (by decide) _).bind_takes
      ((takes_drop _ _).bind_takes (takes_ident ['u', 'l', 'l'] rest))
  · refine ⟨none, fun b rest hb _ => (takes_peekToken? hb hc.not_mem.1 _).bind_fails ?_⟩
    simp only
    exact fails_wrongKind _ _

theorem IsBody.exists_gives_wordOf {body : List Char} (h : IsBody body)
    (words : List (String × α)) :
    ∃ r, ∀ b rest, IsBlanks b →
      Gives (wordOf words) (b ++ '"' :: (body ++ '"' :: rest)) r rest := by
  obtain ⟨r, hr⟩ := h.exists_gives_textAs "variant identifier"
  refine ⟨r.bind fun w => words.lookup w, fun b rest hb => ?_⟩
  refine Gives.placed ((hr b rest hb).bind fun w _ => ?_)
  cases words.lookup w with
  | some a => exact takes_pure a rest
  | none => exact fails_failShape _ rest

theorem takes_keyAhead (hb : IsBlanks b) (hc : c ∈ ['"', '\x7d']) (rest : List Char) :
    Takes keyAhead (b ++ c :: rest) () (c :: rest) := by
  simp only [List.mem_cons, List.not_mem_nil, or_false] at hc
  rcases hc with rfl | rfl
  · exact (takes_peekToken? hb (by decide) rest).bind_takes (takes_pure () _)
  · exact (takes_peekToken? hb (by decide) rest).bind_takes (takes_pure () _)

theorem fails_wordOf_end (words : List (String × α)) (rest : List Char) :
    Fails (wordOf words) ('\x7d' :: rest) := by
  have htext : Fails (textAs "variant identifier") ('\x7d' :: rest) :=
    (takes_peekToken? isBlanks_nil (by decide) rest).bind_fails (fails_wrongKind _ _)
  exact (htext.bind _).placed

/-- What is left of an object behind its first value. -/
def afterFirst (m : Member) (ms : List Member) (rest : List Char) : List Char :=
  m.item.after ++ (tailText (ms.map Member.text) ++ '\x7d' :: rest)

/-- The first key of an object is read as a word, if its value is `null`. -/
theorem exists_gives_firstWord {m : Member} (hspaced : m.IsSpaced) (hkey : IsBody m.key)
    (hvalue : IsValue m.item.value) (words : List (String × α)) (depth : Nat) :
    ∃ r : Option α, ∀ (ms : List Member) (blanks rest : List Char), Gives
      (nested (depth + 2) fun _ => do
        drop
        keyAhead
        let a ← wordOf words
        colon
        Decoder.unit
        return a)
      (objectText (m :: ms) blanks ++ rest) r (afterFirst m ms rest) := by
  obtain ⟨r, hr⟩ := hkey.exists_gives_wordOf words
  obtain ⟨u, hu⟩ := hvalue.exists_reads_unit
  refine ⟨r.bind fun a => u.map fun _ => a, fun ms blanks rest => ?_⟩
  have hends : Ends (afterFirst m ms rest) :=
    .of_blanks hspaced.item.after (ends_tailText _ (by decide) rest)
  simp only [objectText, List.map_cons, innerText, Member.text, Item.text, List.append_assoc,
    List.cons_append, List.nil_append]
  refine gives_nested depth ((takes_drop _ _).bind ?_)
  refine (takes_keyAhead hspaced.before (by decide) _).bind ?_
  refine (hr [] _ isBlanks_nil).bind fun a _ => ?_
  refine (takes_colon hspaced.after _).bind ?_
  exact (hu _ _ hspaced.item.before hends).map

/-- A word written as an object is the key of its only member. -/
theorem exists_reads_word_members {ms : List Member} {blanks : List Char}
    (hblanks : IsBlanks blanks) (hms : ∀ m ∈ ms, m.IsSpaced ∧ IsBody m.key ∧ IsValue m.item.value)
    (words : List (String × α)) (depth : Nat) :
    ∃ r, Reads (word words depth) (objectText ms blanks) r := by
  match depth with
  | 0 | 1 =>
    refine ⟨none, fun b rest hb _ => (takes_peekToken? hb (by decide) _).bind_fails ?_⟩
    exact (fails_nested _ (by decide) _).bind _
  | depth + 2 =>
    cases ms with
    | nil =>
      refine ⟨none, ?_⟩
      intro b rest hb _
      simp only [objectText, List.map_nil, innerText, List.append_assoc, List.cons_append,
        List.nil_append]
      refine (takes_peekToken? hb (by decide) _).bind_fails ?_
      refine Fails.bind ((takes_drop _ _).bind_fails ?_) _
      exact (takes_keyAhead hblanks (by decide) _).bind_fails ((fails_wordOf_end words _).bind _)
    | cons m ms =>
      obtain ⟨⟨hspaced, hkey, hvalue⟩, -⟩ := List.forall_mem_cons.1 hms
      obtain ⟨r, hr⟩ := exists_gives_firstWord hspaced hkey hvalue words depth
      -- the object has to end behind its first member
      refine ⟨r.bind fun a => if ms = [] then some a else none, ?_⟩
      intro b rest hb _
      refine (takes_peekToken? hb (by decide) _).bind ((hr ms blanks rest).bind fun a _ => ?_)
      cases ms with
      | nil =>
        refine (takes_peekToken? hspaced.item.after (by decide) rest).bind ?_
        exact (takes_drop _ rest).bind (takes_pure a rest)
      | cons m' ms =>
        refine (takes_peekToken? hspaced.item.after (c := ',') (by decide) _).bind ?_
        exact fails_failHere _ _

theorem IsValue.exists_reads_word (h : IsValue v) (words : List (String × α)) (depth : Nat) :
    ∃ r, Reads (word words depth) v r := by
  obtain ⟨c, cs, rfl, hc⟩ := h.exists_cons
  by_cases hquote : c = '"'
  · subst hquote
    obtain ⟨body, hbody, rfl⟩ := h.exists_body
    obtain ⟨r, hr⟩ := hbody.exists_gives_wordOf words
    refine ⟨r, fun b rest hb _ => ?_⟩
    simp only [List.append_assoc, List.cons_append, List.nil_append]
    exact (takes_peekToken? hb (by decide) _).bind (hr [] rest isBlanks_nil)
  by_cases hbrace : c = '\x7b'
  · subst hbrace
    obtain ⟨ms, blanks, hblanks, hms, rfl⟩ := h.exists_members
    exact exists_reads_word_members hblanks hms words depth
  refine ⟨none, fun b rest hb _ => (takes_peekToken? hb hc.not_mem.1 _).bind_fails ?_⟩
  split
  · next heq =>
    cases heq
    exact absurd rfl hbrace
  · next heq =>
    cases heq
    exact absurd rfl hquote
  · exact fails_failAhead _ _
  · next heq => cases heq

/-- What is made of a value without looking at a text depends on the value only. -/
theorem Reads.exists_bind {f : α → Decoder β} {r : Option α} (hd : Reads d v r)
    (hf : ∀ a, IsStill (f a)) : ∃ r', Reads (d >>= f) v r' := by
  choose g hg using hf
  exact ⟨r.bind g, fun b rest hb hrest => (hd b rest hb hrest).bind fun a _ => hg a rest⟩

/-- A flag depends on the value only. -/
theorem IsValue.exists_reads_flag (h : IsValue v) (depth : Nat) :
    ∃ r, Reads (flag depth) v r := by
  obtain ⟨r, hr⟩ := h.exists_reads_value depth
  refine hr.exists_bind fun v => ?_
  split
  · exact isStill_pure _
  · split
    · exact isStill_pure _
    · exact isStill_failShape _

/-! ## Optional values and lists -/

theorem reads_nullable_null (d : Decoder α) :
    Reads (nullable d) ['n', 'u', 'l', 'l'] (some none) := by
  intro b rest hb _
  refine (takes_peekToken? hb (by decide) _).bind ((takes_drop _ _).bind ?_)
  exact (takes_ident ['u', 'l', 'l'] rest).bind (takes_pure none rest)

theorem Reads.nullable {r : Option α} (h : Reads d v r) (hv : IsValue v)
    (hnull : v.head? ≠ some 'n') : Reads (nullable d) v (r.map some) := by
  obtain ⟨c, cs, rfl, hc⟩ := hv.exists_cons
  intro b rest hb hrest
  refine (takes_peekToken? hb hc.not_mem.1 _).bind ?_
  split
  · next heq =>
    cases heq
    exact absurd rfl hnull
  · exact (h [] rest isBlanks_nil hrest).map

/-- A list gives what its items give. -/
theorem reads_list {item : Nat → Decoder α} {act : Item → Option α} {xs : List Item}
    {blanks : List Char} (hblanks : IsBlanks blanks) (hspaced : ∀ x ∈ xs, x.IsSpaced)
    (hvalue : ∀ x ∈ xs, IsValue x.value)
    (hitem : ∀ x ∈ xs, Reads (item (depth + 1)) x.value (act x)) :
    Reads (list item (depth + 2)) (listText xs blanks) (xs.mapM act) := by
  intro b rest hb _
  have hlength := length_le (xs.map Item.text) blanks
  simp only [List.length_map] at hlength
  have helements : Gives (fueled fun fuel => elements (item (depth + 1)) fuel true)
      (innerText (xs.map Item.text) blanks ++ ']' :: rest) (xs.mapM act) (']' :: rest) := by
    refine Gives.fueled ?_
    have hfuel : 0 + xs.length <
        2 * (innerText (xs.map Item.text) blanks ++ ']' :: rest).length + 8 := by
      rw [List.length_append]
      omega
    rw [innerText_eq] at hfuel ⊢
    exact gives_elements (fun fuel first => elements (item (depth + 1)) fuel first)
      (fun fuel first => rfl) hspaced hvalue
      (fun x hx _ rest _ hrest => hitem x hx [] rest isBlanks_nil hrest) hblanks hfuel rest
  simp only [listText, List.cons_append, List.append_assoc, List.nil_append]
  refine (takes_peekToken? hb (by decide) _).bind (Gives.placed (gives_nested depth ?_))
  exact (takes_drop _ _).bind (helements.bracketed (takes_endList isBlanks_nil rest))

/-- Lists are read above the limit of nesting only. -/
theorem reads_list_of_lt (item : Nat → Decoder α) (hdepth : depth < 2) (cs : List Char) :
    Reads (list item depth) ('[' :: cs) none := by
  intro b rest hb _
  refine (takes_peekToken? hb (by decide) _).bind_fails ?_
  exact (fails_nested _ hdepth _).placed

/-- What does not begin like a list is none. -/
theorem reads_list_of_ne (item : Nat → Decoder α) (hv : IsValue v) (hlist : v.head? ≠ some '[')
    (depth : Nat) : Reads (list item depth) v none := by
  obtain ⟨c, cs, rfl, hc⟩ := hv.exists_cons
  intro b rest hb _
  refine (takes_peekToken? hb hc.not_mem.1 _).bind_fails ?_
  split
  · next heq => cases heq
  · next heq =>
    cases heq
    exact absurd rfl hlist
  · exact fails_wrongKind _ _

end CqlGlue.Json
