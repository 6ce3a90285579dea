import CqlGlue.Listing.Basic
import CqlGlue.Proofs.Table

/-!
# What productions yield

A bare token that names a production stands for any of its alternatives, or for nothing where the
production is optional; every other token stands for itself. Names may be substituted by what they
yield: where the productions of a grammar are those of another one with some names substituted in
them as far as possible, the names that remain yield the same.

## Main definitions
* `Yields` says which tokens a sequence of tokens yields, `NameYields` which ones a name yields.
* `Substituted` compares a grammar with the one in which names are substituted.

## Main statements
* `yields_append_iff` cuts what is yielded where the tokens are cut.
* `Substituted.nameYields_iff` says that substitution keeps what names yield.
-/

namespace CqlGlue.Listing

/-- The sequences of tokens that a production stands for. -/
def Production.bodies (p : Production) : List (List String) :=
  p.choices ++ if p.optional then [[]] else []

/-- A token in quotes. -/
def IsQuotedToken (token : String) : Bool :=
  token.toList.head?.any fun c => c == '"' || c == '\''

/-- The production that a token refers to. Tokens in quotes refer to none. -/
def Grammar.production? (g : Grammar) (token : String) : Option Production :=
  if IsQuotedToken token then none else g.get? token

/-- The sequences of tokens without productions that a sequence of tokens yields. -/
inductive Yields (g : Grammar) : List String → List String → Prop
  | nil : Yields g [] []
  | token {t : String} {ts u : List String} (ht : g.production? t = none) (h : Yields g ts u) :
      Yields g (t :: ts) (t :: u)
  | production {t : String} {p : Production} {body ts u : List String}
      (ht : g.production? t = some p) (hbody : body ∈ p.bodies) (h : Yields g (body ++ ts) u) :
      Yields g (t :: ts) u

/-- What the production of a name yields. -/
def NameYields (g : Grammar) (name : String) (u : List String) : Prop :=
  ∃ p, g.get? name = some p ∧ ∃ body ∈ p.bodies, Yields g body u

variable {g g' : Grammar}

/-! ## References -/

theorem production?_of_get? {t : String} {p : Production} (hbare : IsQuotedToken t = false)
    (hp : g.get? t = some p) : g.production? t = some p := by
  rw [Grammar.production?, hbare, if_neg Bool.false_ne_true]
  exact hp

theorem get?_of_production? {t : String} {p : Production} (ht : g.production? t = some p) :
    IsQuotedToken t = false ∧ g.get? t = some p := by
  rw [Grammar.production?] at ht
  split at ht
  · cases ht
  · rename_i hbare
    exact ⟨Bool.eq_false_iff.2 hbare, ht⟩

/-! ## Sequences -/

theorem Yields.append {ts us v w : List String} (hts : Yields g ts v) (hus : Yields g us w) :
    Yields g (ts ++ us) (v ++ w) := by
  induction hts with
  | nil => exact hus
  | token ht _ ih => exact .token ht ih
  | production ht hbody _ ih =>
    rw [List.append_assoc] at ih
    exact .production ht hbody ih

/-- What two sequences yield is cut into what the first and what the second yields. -/
theorem yields_append_iff {ts us w : List String} :
    Yields g (ts ++ us) w ↔ ∃ v v', w = v ++ v' ∧ Yields g ts v ∧ Yields g us v' := by
  constructor
  · intro h
    generalize hall : ts ++ us = all at h
    -- Where the first sequence is empty all that is yielded comes from the second.
    induction h generalizing ts with
    | nil =>
      obtain ⟨rfl, rfl⟩ := List.append_eq_nil_iff.1 hall
      exact ⟨[], [], rfl, .nil, .nil⟩
    | @token t _ _ ht h ih =>
      rcases List.append_eq_cons_iff.1 hall with ⟨rfl, rfl⟩ | ⟨ts, rfl, rfl⟩
      · exact ⟨[], _, rfl, .nil, .token ht h⟩
      · obtain ⟨v, v', rfl, hts, hus⟩ := ih rfl
        exact ⟨t :: v, v', rfl, .token ht hts, hus⟩
    | production ht hbody h ih =>
      rcases List.append_eq_cons_iff.1 hall with ⟨rfl, rfl⟩ | ⟨ts, rfl, rfl⟩
      · exact ⟨[], _, rfl, .nil, .production ht hbody h⟩
      · obtain ⟨v, v', rfl, hts, hus⟩ := ih (List.append_assoc _ _ _)
        exact ⟨v, v', rfl, .production ht hbody hts, hus⟩
  · rintro ⟨v, v', rfl, hts, hus⟩
    exact hts.append hus

theorem yields_append_congr {ts ts' us us' : List String}
    (hts : ∀ v, Yields g ts v ↔ Yields g ts' v) (hus : ∀ v, Yields g us v ↔ Yields g us' v)
    {w : List String} : Yields g (ts ++ us) w ↔ Yields g (ts' ++ us') w := by
  rw [yields_append_iff, yields_append_iff]
  simp only [hts, hus]

/-- A token with a production stands for its bodies. -/
theorem yields_singleton_iff {t : String} {p : Production} (ht : g.production? t = some p)
    {w : List String} : Yields g [t] w ↔ ∃ body ∈ p.bodies, Yields g body w := by
  constructor
  · intro h
    cases h with
    | token hnone _ => exact absurd (hnone.symm.trans ht) (by simp)
    | @production _ p' body _ _ ht' hbody h =>
      cases ht'.symm.trans ht
      rw [List.append_nil] at h
      exact ⟨body, hbody, h⟩
  · rintro ⟨body, hbody, h⟩
    refine .production ht hbody ?_
    rw [List.append_nil]
    exact h

/-- Tokens without productions yield themselves only. -/
theorem yields_iff_eq {ts : List String} (hts : ∀ t ∈ ts, g.production? t = none)
    {w : List String} : Yields g ts w ↔ w = ts := by
  induction ts generalizing w with
  | nil =>
    constructor
    · intro h
      cases h
      rfl
    · rintro rfl
      exact .nil
  | cons t ts ih =>
    have ht := hts t List.mem_cons_self
    have ih := fun w => ih (fun t' ht' => hts t' (List.mem_cons_of_mem _ ht')) (w := w)
    constructor
    · intro h
      cases h with
      | token _ h => rw [(ih _).1 h]
      | production hsome _ _ => exact absurd (ht.symm.trans hsome) (by simp)
    · rintro rfl
      exact .token ht ((ih _).2 rfl)

/-- A name whose bodies refer to no productions yields these bodies. -/
theorem nameYields_iff_mem {name : String} {p : Production} (hp : g.get? name = some p)
    (hbodies : ∀ body ∈ p.bodies, ∀ t ∈ body, g.production? t = none) {w : List String} :
    NameYields g name w ↔ w ∈ p.bodies := by
  constructor
  · rintro ⟨p', hp', body, hbody, hw⟩
    obtain rfl := Option.some.inj (hp.symm.trans hp')
    rwa [(yields_iff_eq (hbodies body hbody)).1 hw]
  · intro hw
    exact ⟨p, hp, w, hw, (yields_iff_eq (hbodies w hw)).2 rfl⟩

/-- What is yielded refers to no production. -/
theorem Yields.production?_eq_none {ts w : List String} (h : Yields g ts w) :
    ∀ t ∈ w, g.production? t = none := by
  induction h with
  | nil => exact fun _ ht => absurd ht List.not_mem_nil
  | token ht _ ih =>
    intro t' ht'
    rcases List.mem_cons.1 ht' with rfl | ht'
    · exact ht
    · exact ih t' ht'
  | production _ _ _ ih => exact ih

/-! ## Substitution -/

/-- The productions of some names. -/
def Grammar.only (words : List String) (g : Grammar) : Grammar :=
  g.filter fun name _ => words.contains name

theorem production?_only_of_mem {words : List String} {t : String} (ht : t ∈ words) :
    (g.only words).production? t = g.production? t := by
  have hkeep : words.contains t = true := List.contains_iff_mem.2 ht
  rw [Grammar.production?, Grammar.production?, Grammar.only, Table.get?_filter hkeep]

theorem production?_only_of_not_mem {words : List String} {t : String} (ht : t ∉ words) :
    (g.only words).production? t = none := by
  rw [Grammar.production?]
  split
  · rfl
  · refine Table.get?_eq_none_iff.2 fun hkey => ht ?_
    rw [Grammar.only, Table.mem_keys_filter] at hkey
    exact List.contains_iff_mem.1 hkey.2

/-- The second grammar is the first one without some words, which are substituted in the other
productions as far as possible. -/
structure Substituted (words : List String) (g g' : Grammar) : Prop where
  word : ∀ w ∈ words, (g.production? w).isSome
  keys : ∀ name, name ∈ g'.keys ↔ name ∈ g.keys ∧ name ∉ words
  bodies : ∀ name p p', g.get? name = some p → g'.get? name = some p' →
    ∀ v, v ∈ p'.bodies ↔ ∃ body ∈ p.bodies, Yields (g.only words) body v

namespace Substituted

variable {words : List String} (h : Substituted words g g')
include h

theorem exists_get? {name : String} {p : Production} (hname : name ∉ words)
    (hp : g.get? name = some p) : ∃ p', g'.get? name = some p' := by
  have hkey := Table.mem_keys_of_mem_entries (Table.get?_eq_some_iff.1 hp)
  obtain ⟨p', hp'⟩ := Table.mem_keys_iff.1 ((h.keys name).2 ⟨hkey, hname⟩)
  exact ⟨p', Table.get?_eq_some_iff.2 hp'⟩

theorem exists_get?_of_get? {name : String} {p' : Production} (hp' : g'.get? name = some p') :
    name ∉ words ∧ ∃ p, g.get? name = some p := by
  have hkey := Table.mem_keys_of_mem_entries (Table.get?_eq_some_iff.1 hp')
  obtain ⟨hkey, hname⟩ := (h.keys name).1 hkey
  obtain ⟨p, hp⟩ := Table.mem_keys_iff.1 hkey
  exact ⟨hname, p, Table.get?_eq_some_iff.2 hp⟩

/-- What a production yields by the words alone mentions no word. -/
theorem not_mem_of_yields_only {ts v : List String} (hv : Yields (g.only words) ts v) :
    ∀ t ∈ v, t ∉ words := by
  intro t ht hword
  have hnone := hv.production?_eq_none t ht
  rw [production?_only_of_mem hword] at hnone
  have hsome := h.word t hword
  rw [hnone] at hsome
  cases hsome

/-- What tokens yield can be had by substituting the words first. -/
theorem exists_yields {ts w : List String} (hw : Yields g ts w) :
    ∃ us, Yields (g.only words) ts us ∧ Yields g' us w := by
  induction hw with
  | nil => exact ⟨[], .nil, .nil⟩
  | @token t ts w ht _ ih =>
    obtain ⟨us, hus, hw⟩ := ih
    have hword : t ∉ words := by
      intro hword
      have hsome := h.word t hword
      rw [ht] at hsome
      cases hsome
    have ht' : g'.production? t = none := by
      cases hp' : g'.production? t with
      | none => rfl
      | some p' =>
        obtain ⟨hbare, hget⟩ := get?_of_production? hp'
        obtain ⟨-, p, hp⟩ := h.exists_get?_of_get? hget
        exact absurd ((production?_of_get? hbare hp).symm.trans ht) (by simp)
    exact ⟨t :: us, .token (production?_only_of_not_mem hword) hus, .token ht' hw⟩
  | @production t p body ts w ht hbody _ ih =>
    obtain ⟨us, hus, hw⟩ := ih
    by_cases hword : t ∈ words
    · exact ⟨us, .production ((production?_only_of_mem hword).trans ht) hbody hus, hw⟩
    · -- What the words make of the body is a body of the production that remains.
      obtain ⟨v, v', rfl, hv, hv'⟩ := yields_append_iff.1 hus
      obtain ⟨hbare, hget⟩ := get?_of_production? ht
      obtain ⟨p', hp'⟩ := h.exists_get? hword hget
      have hmem := (h.bodies t p p' hget hp' v).2 ⟨body, hbody, hv⟩
      exact ⟨t :: v', .token (production?_only_of_not_mem hword) hv',
        .production (production?_of_get? hbare hp') hmem hw⟩

omit h in
/-- Before the words are substituted, tokens yield whatever they yield afterwards. -/
theorem yields_of_yields_only {ts v us w : List String} (hv : Yields (g.only words) ts v)
    (hw : Yields g (v ++ us) w) : Yields g (ts ++ us) w := by
  induction hv generalizing w with
  | nil => exact hw
  | @token t ts v _ _ ih =>
    rw [List.cons_append, ← List.singleton_append] at hw
    obtain ⟨u, u', rfl, ht, hrest⟩ := yields_append_iff.1 hw
    exact ht.append (ih hrest)
  | @production t p body ts v ht hbody _ ih =>
    have hrest := ih hw
    rw [List.append_assoc] at hrest
    refine .production ?_ hbody hrest
    by_cases hword : t ∈ words
    · exact (production?_only_of_mem hword).symm.trans ht
    · rw [production?_only_of_not_mem hword] at ht
      cases ht

theorem yields_of_yields {us w : List String} (hus : ∀ t ∈ us, t ∉ words)
    (hw : Yields g' us w) : Yields g us w := by
  induction hw with
  | nil => exact .nil
  | @token t us w ht _ ih =>
    have hword := hus t List.mem_cons_self
    have htg : g.production? t = none := by
      cases hp : g.production? t with
      | none => rfl
      | some p =>
        obtain ⟨hbare, hget⟩ := get?_of_production? hp
        obtain ⟨p', hp'⟩ := h.exists_get? hword hget
        exact absurd ((production?_of_get? hbare hp').symm.trans ht) (by simp)
    exact .token htg (ih fun t' ht' => hus t' (List.mem_cons_of_mem _ ht'))
  | @production t p' body us w ht hbody _ ih =>
    obtain ⟨hbare, hget⟩ := get?_of_production? ht
    obtain ⟨-, p, hp⟩ := h.exists_get?_of_get? hget
    obtain ⟨c, hc, hyields⟩ := (h.bodies t p p' hp hget body).1 hbody
    have hfree : ∀ t' ∈ body ++ us, t' ∉ words := by
      intro t' ht'
      rcases List.mem_append.1 ht' with ht' | ht'
      · exact h.not_mem_of_yields_only hyields t' ht'
      · exact hus t' (List.mem_cons_of_mem _ ht')
    exact .production (production?_of_get? hbare hp) hc (yields_of_yields_only hyields (ih hfree))

/-- The names that remain yield what they yielded before the words were substituted. -/
theorem nameYields_iff {name : String} (hname : name ∉ words) {w : List String} :
    NameYields g' name w ↔ NameYields g name w := by
  constructor
  · rintro ⟨p', hp', us, hus, hw⟩
    obtain ⟨-, p, hp⟩ := h.exists_get?_of_get? hp'
    obtain ⟨body, hbody, hyields⟩ := (h.bodies name p p' hp hp' us).1 hus
    have hfree := h.not_mem_of_yields_only hyields
    have hwhole : Yields g (body ++ []) w :=
      yields_of_yields_only hyields ((List.append_nil us).symm ▸ h.yields_of_yields hfree hw)
    rw [List.append_nil] at hwhole
    exact ⟨p, hp, body, hbody, hwhole⟩
  · rintro ⟨p, hp, body, hbody, hw⟩
    obtain ⟨p', hp'⟩ := h.exists_get? hname hp
    obtain ⟨us, hus, hw⟩ := h.exists_yields hw
    exact ⟨p', hp', us, (h.bodies name p p' hp hp' us).2 ⟨body, hbody, hus⟩, hw⟩

end Substituted

end CqlGlue.Listing
