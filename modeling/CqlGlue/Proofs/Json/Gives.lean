import CqlGlue.Json.Record
import Mathlib.Tactic.Choose

/-!
# What a decoder makes of a text

Whether a decoder succeeds on a text, and with what, does not depend on the place the text stands
at; the place is in faults only. So the run of a decoder is described by what it gives and what it
leaves, and the descriptions of two runs make the description of one after the other.

## Main definitions
* `Takes` says that a decoder gives a value, and `Fails` that it gives none.
* `Gives` is one or the other, and `given` is the value, if there is one.
* `IsStill` is about decoders that look at no text.

## Main statements
* `Gives.bind`: what one decoder after another gives.
-/

namespace CqlGlue.Json.Decoder

variable {α β : Type} {d : Decoder α} {f : α → Decoder β} {g : α → Option β} {a : α} {b : β}
  {r : Option α} {text mid rest : List Char} {c : Char}

/-- A decoder gives a value and leaves the rest of a text, wherever the text stands. -/
def Takes (d : Decoder α) (text : List Char) (a : α) (rest : List Char) : Prop :=
  ∀ place, ∃ place', d ⟨text, place⟩ = .ok a ⟨rest, place'⟩

/-- A decoder gives nothing, wherever the text stands. -/
def Fails (d : Decoder α) (text : List Char) : Prop :=
  ∀ place, ∃ fault input, d ⟨text, place⟩ = .error fault input

/-- A decoder gives a value and leaves a rest, or gives nothing. -/
def Gives (d : Decoder α) (text : List Char) (r : Option α) (rest : List Char) : Prop :=
  match r with
  | some a => Takes d text a rest
  | none => Fails d text

/-- What a decoder gives of a text, wherever the text stands. -/
def given (d : Decoder α) (text : List Char) : Option α :=
  match d ⟨text, ⟨1, 0⟩⟩ with
  | .ok a _ => some a
  | .error _ _ => none

theorem Gives.given_eq (h : Gives d text r rest) : given d text = r := by
  cases r with
  | some a =>
    obtain ⟨place, hplace⟩ := h ⟨1, 0⟩
    rw [given, hplace]
  | none =>
    obtain ⟨fault, input, hfails⟩ := h ⟨1, 0⟩
    rw [given, hfails]

/-! ## One after the other -/

theorem bind_apply {i j : Input} (h : d i = .ok a j) : (d >>= f) i = f a j := by
  change EStateM.bind d f i = _
  rw [EStateM.bind, h]

theorem bind_apply_error {i j : Input} {fault : Fault} (h : d i = .error fault j) :
    (d >>= f) i = .error fault j := by
  change EStateM.bind d f i = _
  rw [EStateM.bind, h]

theorem takes_pure (a : α) (text : List Char) : Takes (pure a : Decoder α) text a text :=
  fun place => ⟨place, rfl⟩

theorem Fails.bind (h : Fails d text) (f : α → Decoder β) : Fails (d >>= f) text := by
  intro place
  obtain ⟨fault, input, hfails⟩ := h place
  exact ⟨fault, input, bind_apply_error hfails⟩

theorem get_bind_apply (f : Input → Decoder α) (i : Input) :
    ((get : Decoder Input) >>= f) i = f i i := rfl

/-- What comes after a decoder that takes its value goes on with the rest. -/
theorem Takes.bind_takes (h : Takes d text a mid) (hf : Takes (f a) mid b rest) :
    Takes (d >>= f) text b rest := by
  intro place
  obtain ⟨place', hplace'⟩ := h place
  rw [bind_apply hplace']
  exact hf place'

theorem Takes.bind_fails (h : Takes d text a mid) (hf : Fails (f a) mid) :
    Fails (d >>= f) text := by
  intro place
  obtain ⟨place', hplace'⟩ := h place
  rw [bind_apply hplace']
  exact hf place'

theorem Takes.bind {s : Option β} (h : Takes d text a mid) (hf : Gives (f a) mid s rest) :
    Gives (d >>= f) text s rest := by
  cases s with
  | some b => exact h.bind_takes hf
  | none => exact h.bind_fails hf

theorem gives_get_bind {f : Input → Decoder α} (h : ∀ place, Gives (f ⟨text, place⟩) text r rest) :
    Gives (get >>= f) text r rest := by
  cases r with
  | some a => exact fun place => h place place
  | none => exact fun place => h place place

theorem Gives.bind (h : Gives d text r mid)
    (hf : ∀ a, r = some a → Gives (f a) mid (g a) rest) :
    Gives (d >>= f) text (r.bind g) rest := by
  cases r with
  | some a => exact Takes.bind h (hf a rfl)
  | none => exact Fails.bind h f

theorem Gives.map {h : α → β} (hd : Gives d text r rest) :
    Gives (d >>= fun a => pure (h a)) text (r.map h) rest := by
  rw [Option.map_eq_bind]
  exact hd.bind fun a _ => takes_pure (h a) rest

/-! ## Faults -/

theorem fails_failAt (cause : Cause) (place : Place) (text : List Char) :
    Fails (failAt cause place : Decoder α) text :=
  fun _ => ⟨_, _, rfl⟩

theorem fails_failHere (cause : Cause) (text : List Char) :
    Fails (failHere cause : Decoder α) text :=
  fun _ => ⟨_, _, rfl⟩

theorem fails_failAhead (cause : Cause) (text : List Char) :
    Fails (failAhead cause : Decoder α) text :=
  fun _ => ⟨_, _, rfl⟩

theorem fails_failShape (cause : Cause) (text : List Char) :
    Fails (failShape cause : Decoder α) text :=
  fun _ => ⟨_, _, rfl⟩

/-- A decoder gives the same for every text, and leaves it. -/
def IsStill (d : Decoder α) : Prop := ∃ r, ∀ text, Gives d text r text

theorem isStill_pure (a : α) : IsStill (pure a) := ⟨some a, takes_pure a⟩

theorem isStill_failHere (cause : Cause) : IsStill (failHere cause : Decoder α) :=
  ⟨none, fails_failHere cause⟩

theorem isStill_failShape (cause : Cause) : IsStill (failShape cause : Decoder α) :=
  ⟨none, fails_failShape cause⟩

theorem IsStill.bind (hd : IsStill d) (hf : ∀ a, IsStill (f a)) : IsStill (d >>= f) := by
  obtain ⟨r, hr⟩ := hd
  choose g hg using hf
  exact ⟨r.bind g, fun text => (hr text).bind fun a _ => hg a text⟩

theorem Fails.placed (h : Fails d text) : Fails d.placed text := by
  intro place
  obtain ⟨fault, input, hfails⟩ := h place
  exact ⟨_, input, by rw [Decoder.placed, hfails]⟩

/-- A place for a fault changes nothing else. -/
theorem Gives.placed (h : Gives d text r rest) : Gives d.placed text r rest := by
  cases r with
  | some a =>
    intro place
    obtain ⟨place', hplace'⟩ := h place
    exact ⟨place', by rw [Decoder.placed, hplace']⟩
  | none => exact Fails.placed h

theorem Fails.bracketed (h : Fails d text) (close : Decoder Unit) :
    Fails (bracketed d close) text := by
  intro place
  obtain ⟨fault, input, hfails⟩ := h place
  rw [Decoder.bracketed, hfails]
  cases hclose : close input with
  | ok u j => exact ⟨fault, j, by simp only [hclose]⟩
  | error fault' j => exact ⟨fault, j, by simp only [hclose]⟩

/-- A bracket is closed behind a value. -/
theorem Takes.bracketed {close : Decoder Unit} {s : Option Unit} (h : Takes d text a mid)
    (hclose : Gives close mid s rest) :
    Gives (bracketed d close) text (s.map fun _ => a) rest := by
  cases s with
  | some u =>
    intro place
    obtain ⟨place', hplace'⟩ := h place
    obtain ⟨place'', hplace''⟩ := hclose place'
    exact ⟨place'', by simp only [Decoder.bracketed, hplace', hplace'']⟩
  | none =>
    intro place
    obtain ⟨place', hplace'⟩ := h place
    obtain ⟨fault, input, hfails⟩ := hclose place'
    exact ⟨fault, input, by simp only [Decoder.bracketed, hplace', hfails]⟩

theorem Gives.bracketed {close : Decoder Unit} (h : Gives d text r mid)
    (hclose : Takes close mid () rest) : Gives (bracketed d close) text r rest := by
  cases r with
  | some a => exact Takes.bracketed h (s := some ()) hclose
  | none => exact Fails.bracketed h close

theorem Gives.fueled {d : Nat → Decoder α} (h : Gives (d (2 * text.length + 8)) text r rest) :
    Gives (fueled d) text r rest := h

/-! ## Characters -/

theorem takes_peek? (text : List Char) : Takes peek? text text.head? text := fun place =>
  ⟨place, rfl⟩

theorem takes_drop (c : Char) (text : List Char) : Takes drop (c :: text) () text := fun place =>
  ⟨place.after c, rfl⟩

/-- What is taken of a class of characters ends where another one stands. -/
theorem takes_takeWhile {p : Char → Bool} {cs : List Char} (hcs : ∀ x ∈ cs, p x = true)
    (hrest : ∀ x ∈ rest.head?, p x = false) :
    Takes (takeWhile p) (cs ++ rest) cs rest := by
  intro place
  have htake : (cs ++ rest).takeWhile p = cs := by
    rw [List.takeWhile_append_of_pos hcs]
    cases rest with
    | nil => simp
    | cons x xs => simp [hrest x rfl]
  have hdrop : (cs ++ rest).dropWhile p = rest := by
    rw [List.dropWhile_append_of_pos hcs]
    cases rest with
    | nil => simp
    | cons x xs => simp [hrest x rfl]
  refine ⟨cs.foldl Place.after place, ?_⟩
  change EStateM.Result.ok ((cs ++ rest).takeWhile p)
    (⟨(cs ++ rest).dropWhile p, ((cs ++ rest).takeWhile p).foldl Place.after place⟩ : Input) = _
  rw [htake, hdrop]

theorem takes_ident (cs rest : List Char) : Takes (ident cs) (cs ++ rest) () rest := by
  induction cs with
  | nil => exact takes_pure () rest
  | cons c cs ih =>
    refine (takes_peek? _).bind_takes ?_
    simp only [List.cons_append, List.head?_cons, if_true]
    exact (takes_drop c _).bind_takes ih

end CqlGlue.Json.Decoder
