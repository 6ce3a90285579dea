import CqlGlue.Proofs.Json.Grammar

/-!
# Reading lists and objects

Between two brackets the items of a list, and the members of an object, are read one after the
other. Where each of them is read up to its end, so are all of them, whoever reads them.

## Main statements
* `gives_elements`: what the items of a list give, one by one.
* `gives_members`: what the members of an object make of a state, one by one.
-/

namespace CqlGlue.Json

open Decoder

variable {α σ : Type} {b v rest text : List Char} {c : Char} {first : Bool}

/-! ## Blanks -/

theorem isBlanks_nil : IsBlanks [] := nofun

theorem takes_peekToken? (hb : IsBlanks b) (hc : isJsonBlank c = false) (rest : List Char) :
    Takes peekToken? (b ++ c :: rest) (some c) (c :: rest) := by
  have hrest : ∀ x ∈ (c :: rest).head?, isJsonBlank x = false := by
    intro x hx
    cases hx
    exact hc
  exact (takes_takeWhile hb hrest).bind_takes (takes_peek? _)

theorem takes_peekToken?_nil (hb : IsBlanks b) : Takes peekToken? b none [] := by
  have htakes : Takes (takeWhile isJsonBlank) (b ++ []) b [] := takes_takeWhile hb nofun
  rw [List.append_nil] at htakes
  exact htakes.bind_takes (takes_peek? _)

/-- The characters that a value may begin with. -/
def IsStart (c : Char) : Prop :=
  c ∈ ['n', 't', 'f', '-', '"', '[', '\x7b'] ∨ c.isDigit = true

theorem IsStart.not_mem (h : IsStart c) :
    isJsonBlank c = false ∧ c ≠ ',' ∧ c ≠ ']' ∧ c ≠ '\x7d' := by
  rcases h with h | h
  · simp only [List.mem_cons, List.not_mem_nil, or_false] at h
    rcases h with rfl | rfl | rfl | rfl | rfl | rfl | rfl <;> decide
  · refine ⟨?_, ?_, ?_, ?_⟩
    · cases hblank : isJsonBlank c with
      | false => rfl
      | true =>
        simp only [isJsonBlank, Bool.or_eq_true, beq_iff_eq] at hblank
        rcases hblank with ((rfl | rfl) | rfl) | rfl <;> cases h
    all_goals
      rintro rfl
      cases h

theorem IsValue.exists_cons (h : IsValue v) : ∃ c cs, v = c :: cs ∧ IsStart c := by
  cases h with
  | null => exact ⟨_, _, rfl, .inl (by decide)⟩
  | yes => exact ⟨_, _, rfl, .inl (by decide)⟩
  | no => exact ⟨_, _, rfl, .inl (by decide)⟩
  | @number sign ds fraction exponent hsign hds _ _ =>
    simp only [List.mem_cons, List.not_mem_nil, or_false] at hsign
    rcases hsign with rfl | rfl
    · obtain ⟨d, es, rfl⟩ := List.exists_cons_of_ne_nil hds.1.1
      exact ⟨d, _, rfl, .inr (hds.1.2 d (List.mem_cons_self ..))⟩
    · exact ⟨_, _, rfl, .inl (by decide)⟩
  | text => exact ⟨_, _, rfl, .inl (by decide)⟩
  | list => exact ⟨_, _, rfl, .inl (by decide)⟩
  | object => exact ⟨_, _, rfl, .inl (by decide)⟩

/-! ## What follows -/

theorem Ends.of_blanks (hb : IsBlanks b) (h : Ends rest) : Ends (b ++ rest) := by
  cases b with
  | nil => exact h
  | cons x xs =>
    intro c hc
    cases hc
    exact .inl (hb x (List.mem_cons_self ..))

theorem ends_cons (hc : c ∈ [',', ']', '\x7d']) (rest : List Char) : Ends (c :: rest) := by
  intro x hx
  cases hx
  exact .inr hc

/-- A comma or a closing bracket follows. -/
theorem ends_tailText (texts : List (List Char)) (hc : c ∈ [']', '\x7d']) (rest : List Char) :
    Ends (tailText texts ++ c :: rest) := by
  cases texts with
  | nil => exact ends_cons (List.mem_cons_of_mem _ hc) rest
  | cons t ts => exact ends_cons (by decide) _

/-- What is left between two brackets at the beginning, or behind blanks later. -/
def leadText : Bool → List Char → List (List Char) → List Char
  | true, _, t :: ts => t ++ tailText ts
  | _, b, ts => b ++ tailText ts

theorem innerText_eq (texts : List (List Char)) (b : List Char) :
    innerText texts b = leadText true b texts := by
  cases texts with
  | nil => exact (List.append_nil b).symm
  | cons t ts => rfl

theorem leadText_nil (first : Bool) (b : List Char) : leadText first b [] = b := by
  cases first <;> exact List.append_nil b

/-! ## Lists -/

theorem takes_nextElement?_end (hb : IsBlanks b) (first : Bool) (rest : List Char) :
    Takes (nextElement? first) (b ++ ']' :: rest) false (']' :: rest) :=
  (takes_peekToken? hb (by decide) rest).bind_takes (takes_pure false _)

theorem takes_nextElement? {x : Item} (hb : IsBlanks b) (hx : x.IsSpaced) (hv : IsValue x.value)
    (first : Bool) (texts : List (List Char)) (rest : List Char) :
    Takes (nextElement? first) (leadText first b (x.text :: texts) ++ rest) true
      (x.value ++ (x.after ++ (tailText texts ++ rest))) := by
  obtain ⟨c, cs, hcs, hc⟩ := hv.exists_cons
  obtain ⟨hblank, -, hbracket, -⟩ := hc.not_mem
  cases first with
  | true =>
    simp only [leadText, Item.text, hcs, List.append_assoc, List.cons_append]
    refine (takes_peekToken? hx.before hblank _).bind_takes ?_
    simp only [if_true]
    exact takes_pure true _
  | false =>
    simp only [leadText, tailText, List.flatMap_cons, Item.text, hcs, List.append_assoc,
      List.cons_append]
    refine (takes_peekToken? hb (by decide) _).bind_takes ?_
    refine (takes_drop _ _).bind_takes ((takes_peekToken? hx.before hblank _).bind_takes ?_)
    simp only
    exact takes_pure true _

theorem takes_endList (hb : IsBlanks b) (rest : List Char) :
    Takes endList (b ++ ']' :: rest) () rest :=
  (takes_peekToken? hb (by decide) rest).bind_takes (takes_drop _ rest)

/-- What the items of a list give, to whoever reads them one by one. -/
theorem gives_elements (loop : Nat → Bool → Decoder (List α)) {item : Nat → Decoder α}
    (hloop : ∀ fuel first, loop (fuel + 1) first = do
      if ← nextElement? first then
        let a ← item fuel
        return a :: (← loop fuel false)
      else return [])
    {act : Item → Option α} {least fuel : Nat} {xs : List Item} (hspaced : ∀ x ∈ xs, x.IsSpaced)
    (hvalue : ∀ x ∈ xs, IsValue x.value)
    (hitem : ∀ x ∈ xs, ∀ fuel rest, least ≤ fuel → Ends rest →
      Gives (item fuel) (x.value ++ rest) (act x) rest)
    (hb : IsBlanks b) (hfuel : least + xs.length < fuel) (rest : List Char) :
    Gives (loop fuel first) (leadText first b (xs.map Item.text) ++ ']' :: rest) (xs.mapM act)
      (']' :: rest) := by
  induction xs generalizing fuel first b with
  | nil =>
    obtain ⟨fuel, rfl⟩ := Nat.exists_eq_add_one_of_ne_zero (Nat.ne_zero_of_lt hfuel)
    rw [hloop, List.map_nil, leadText_nil]
    exact (takes_nextElement?_end hb first rest).bind (takes_pure [] _)
  | cons x xs ih =>
    obtain ⟨fuel, rfl⟩ := Nat.exists_eq_add_one_of_ne_zero (Nat.ne_zero_of_lt hfuel)
    simp only [List.forall_mem_cons] at hspaced hvalue hitem
    have hfuel' : least + xs.length < fuel := by
      simp only [List.length_cons] at hfuel
      omega
    have hends : Ends (x.after ++ (tailText (xs.map Item.text) ++ ']' :: rest)) :=
      .of_blanks hspaced.1.after (ends_tailText _ (by decide) rest)
    have hfirst := hitem.1 fuel _ (by omega) hends
    have hrest : Gives (loop fuel false) (x.after ++ (tailText (xs.map Item.text) ++ ']' :: rest))
        (xs.mapM act) (']' :: rest) := by
      rw [← List.append_assoc]
      exact ih hspaced.2 hvalue.2 hitem.2 hspaced.1.after hfuel'
    rw [hloop, List.map_cons, List.mapM_cons]
    refine (takes_nextElement? hb hspaced.1 hvalue.1 first _ _).bind ?_
    exact hfirst.bind fun a _ => hrest.bind fun as _ => takes_pure (a :: as) _

/-! ## Objects -/

theorem takes_nextMember?_end (hb : IsBlanks b) (first : Bool) (rest : List Char) :
    Takes (nextMember? first) (b ++ '\x7d' :: rest) false ('\x7d' :: rest) :=
  (takes_peekToken? hb (by decide) rest).bind_takes (takes_pure false _)

theorem takes_nextMember? {m : Member} (hb : IsBlanks b) (hm : m.IsSpaced) (first : Bool)
    (texts : List (List Char)) (rest : List Char) :
    Takes (nextMember? first) (leadText first b (m.text :: texts) ++ rest) true
      ('"' :: (m.key ++ ('"' :: (m.after ++
        (':' :: (m.item.text ++ (tailText texts ++ rest))))))) := by
  cases first with
  | true =>
    simp only [leadText, Member.text, List.append_assoc, List.cons_append]
    exact (takes_peekToken? hm.before (by decide) _).bind_takes (takes_pure true _)
  | false =>
    simp only [leadText, tailText, List.flatMap_cons, Member.text, List.append_assoc,
      List.cons_append]
    refine (takes_peekToken? hb (by decide) _).bind_takes ?_
    refine (takes_drop _ _).bind_takes ((takes_peekToken? hm.before (by decide) _).bind_takes ?_)
    exact takes_pure true _

theorem takes_endObject (rest : List Char) : Takes endObject ('\x7d' :: rest) () rest :=
  (takes_peekToken? isBlanks_nil (by decide) rest).bind_takes (takes_drop _ rest)

theorem takes_colon (hb : IsBlanks b) (rest : List Char) :
    Takes colon (b ++ ':' :: rest) () rest :=
  (takes_peekToken? hb (by decide) rest).bind_takes (takes_drop _ rest)

/-- What the members of an object make of a state, for whoever reads them one by one. -/
theorem gives_members (loop : Nat → Bool → σ → Decoder σ) {entry : Nat → σ → Decoder σ}
    (hloop : ∀ fuel first s, loop (fuel + 1) first s = do
      if ← nextMember? first then
        drop
        loop fuel false (← entry fuel s)
      else return s)
    {act : Member → σ → Option σ} {least fuel : Nat} {ms : List Member}
    (hspaced : ∀ m ∈ ms, m.IsSpaced)
    (hentry : ∀ m ∈ ms, ∀ fuel s rest, least ≤ fuel → Ends rest →
      Gives (entry fuel s)
        (m.key ++ ('"' :: (m.after ++ (':' :: (m.item.before ++ (m.item.value ++ rest))))))
        (act m s) rest)
    (hb : IsBlanks b) (hfuel : least + ms.length < fuel) (s : σ) (rest : List Char) :
    Gives (loop fuel first s) (leadText first b (ms.map Member.text) ++ '\x7d' :: rest)
      (ms.foldlM (fun s m => act m s) s) ('\x7d' :: rest) := by
  induction ms generalizing fuel first b s with
  | nil =>
    obtain ⟨fuel, rfl⟩ := Nat.exists_eq_add_one_of_ne_zero (Nat.ne_zero_of_lt hfuel)
    rw [hloop, List.map_nil, leadText_nil]
    exact (takes_nextMember?_end hb first rest).bind (takes_pure s _)
  | cons m ms ih =>
    obtain ⟨fuel, rfl⟩ := Nat.exists_eq_add_one_of_ne_zero (Nat.ne_zero_of_lt hfuel)
    simp only [List.forall_mem_cons] at hspaced hentry
    have hfuel' : least + ms.length < fuel := by
      simp only [List.length_cons] at hfuel
      omega
    have hends : Ends (m.item.after ++ (tailText (ms.map Member.text) ++ '\x7d' :: rest)) :=
      .of_blanks hspaced.1.item.after (ends_tailText _ (by decide) rest)
    have hfirst := hentry.1 fuel s _ (by omega) hends
    have hrest : ∀ s, Gives (loop fuel false s)
        (m.item.after ++ (tailText (ms.map Member.text) ++ '\x7d' :: rest))
        (ms.foldlM (fun s m => act m s) s) ('\x7d' :: rest) := by
      intro s
      rw [← List.append_assoc]
      exact ih hspaced.2 hentry.2 hspaced.1.item.after hfuel' s
    rw [hloop, List.map_cons, List.foldlM_cons]
    refine (takes_nextMember? hb hspaced.1 first _ _).bind ((takes_drop _ _).bind ?_)
    simp only [Item.text, List.append_assoc]
    exact hfirst.bind fun s _ => hrest s

end CqlGlue.Json
