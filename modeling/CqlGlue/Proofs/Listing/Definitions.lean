import CqlGlue.Listing.Basic
import CqlGlue.Proofs.Table
import Mathlib.Data.List.Induction

/-!
# Definitions one after the other

Reading a listing adds its definitions to a grammar in order. Names that are taken out and
alternatives that are changed afterwards could as well be taken out and changed in the
definitions, because a later definition of a name looks at the earlier one only for whether it
may match nothing.

## Main definitions
* `Production.mapChoices` changes alternatives.
* `merged` is what several definitions make of a name.

## Main statements
* `get?_defineAll_of_filter` is the production of a name that is defined once.
* `entries_defineAll` are the productions of all names in order.
* `filter_map_defineAll` takes out and changes in the definitions.
-/

namespace CqlGlue.Listing

/-- Changes the alternatives of a production. -/
def Production.mapChoices (f : List (List String) → List (List String)) (p : Production) :
    Production :=
  { p with choices := f p.choices }

namespace Grammar

variable {g : Grammar} {name : String} {p : Production}

/-! ## Names -/

theorem get?_define_of_ne {other : String} (h : other ≠ name) :
    (define g name p).get? other = g.get? other := by
  rw [define, Table.get?_insert, if_neg h]

/-- A name that is new has the production as it is defined. -/
theorem get?_define_self (h : name ∉ g.keys) : (define g name p).get? name = some p := by
  rw [define, Table.get?_insert, if_pos rfl, isOptional, Table.get?_eq_none_iff.2 h,
    Option.any_none, Bool.or_false]

theorem mem_keys_define {other : String} :
    other ∈ (define g name p).keys ↔ other = name ∨ other ∈ g.keys :=
  Table.mem_keys_insert

variable {definitions : List (String × Production)}

theorem defineAll_cons (g : Grammar) (d : String × Production) :
    defineAll g (d :: definitions) = defineAll (define g d.1 d.2) definitions := rfl

theorem mem_keys_defineAll {other : String} :
    other ∈ (defineAll g definitions).keys ↔
      other ∈ g.keys ∨ ∃ d ∈ definitions, d.1 = other := by
  induction definitions generalizing g with
  | nil => simp [defineAll]
  | cons d definitions ih =>
    rw [defineAll_cons, ih, mem_keys_define]
    constructor
    · rintro ((rfl | hg) | ⟨d', hd', hname⟩)
      · exact .inr ⟨d, List.mem_cons_self, rfl⟩
      · exact .inl hg
      · exact .inr ⟨d', List.mem_cons_of_mem _ hd', hname⟩
    · rintro (hg | ⟨d', hd', hname⟩)
      · exact .inl (.inr hg)
      · rcases List.mem_cons.1 hd' with rfl | hd'
        · exact .inl (.inl hname.symm)
        · exact .inr ⟨d', hd', hname⟩

theorem get?_defineAll_of_forall_ne (h : ∀ d ∈ definitions, d.1 ≠ name) :
    (defineAll g definitions).get? name = g.get? name := by
  induction definitions generalizing g with
  | nil => rfl
  | cons d definitions ih =>
    rw [defineAll_cons, ih fun d' hd' => h d' (List.mem_cons_of_mem _ hd'),
      get?_define_of_ne (h d List.mem_cons_self).symm]

/-- A name that is defined once has the production of this definition. -/
theorem get?_defineAll_of_filter {d : String × Production} (hg : name ∉ g.keys)
    (h : definitions.filter (·.1 == name) = [d]) :
    (defineAll g definitions).get? name = some d.2 := by
  induction definitions generalizing g with
  | nil => cases h
  | cons d' definitions ih =>
    rw [defineAll_cons]
    by_cases hname : d'.1 = name
    · rw [List.filter_cons_of_pos (by simpa using hname)] at h
      obtain ⟨rfl, hrest⟩ := List.cons.inj h
      have hothers : ∀ e ∈ definitions, e.1 ≠ name := by
        intro e he
        simpa using List.filter_eq_nil_iff.1 hrest e he
      subst hname
      rw [get?_defineAll_of_forall_ne hothers, get?_define_self hg]
    · rw [List.filter_cons_of_neg (by simpa using hname)] at h
      refine ih (fun hmem => ?_) h
      rcases mem_keys_define.1 hmem with rfl | hmem
      · exact hname rfl
      · exact hg hmem

/-- A name has the alternatives of its last definition. -/
theorem get?_defineAll_of_last {earlier later : List (String × Production)}
    (h : ∀ d ∈ later, d.1 ≠ name) :
    ∃ q, (defineAll g (earlier ++ (name, p) :: later)).get? name = some q ∧
      q.choices = p.choices := by
  rw [defineAll, List.foldl_append, List.foldl_cons, ← defineAll, ← defineAll,
    get?_defineAll_of_forall_ne h, define, Table.get?_insert, if_pos rfl]
  exact ⟨_, rfl, rfl⟩

/-! ## All names -/

/-- What definitions make of a name: the alternatives of the last one, and it may match nothing
where one of them may. -/
def merged (definitions : List (String × Production)) (name : String) : Production where
  choices := ((definitions.reverse.lookup name).map Production.choices).getD []
  optional := definitions.any fun d => d.1 == name && d.2.optional

theorem merged_concat_self (definitions : List (String × Production)) (name : String)
    (p : Production) :
    merged (definitions ++ [(name, p)]) name =
      { p with optional := p.optional || (merged definitions name).optional } := by
  rw [merged, List.reverse_concat, List.lookup_cons_self, List.any_append]
  simp [merged, Bool.or_comm]

theorem merged_concat_of_ne {other : String} (h : other ≠ name) :
    merged (definitions ++ [(name, p)]) other = merged definitions other := by
  have hname : (name == other) = false := beq_eq_false_iff_ne.2 h.symm
  have hother : (other == name) = false := beq_eq_false_iff_ne.2 h
  rw [merged, List.reverse_concat, List.lookup_cons, hother, List.any_append]
  simp [merged, hname]

theorem optional_merged_of_not_mem (h : name ∉ definitions.map Prod.fst) :
    (merged definitions name).optional = false := by
  rw [merged, List.any_eq_false]
  intro d hd
  have hne : d.1 ≠ name := fun heq => h (heq ▸ List.mem_map_of_mem hd)
  simp [hne]

theorem defineAll_concat (g : Grammar) (definitions : List (String × Production))
    (d : String × Production) :
    defineAll g (definitions ++ [d]) = define (defineAll g definitions) d.1 d.2 := by
  rw [defineAll, List.foldl_append]
  rfl

/-- A definition looks at the earlier ones only for whether the name may match nothing. -/
theorem get?_defineAll (definitions : List (String × Production)) (name : String) :
    (defineAll Table.empty definitions).get? name =
      if name ∈ definitions.map Prod.fst then some (merged definitions name) else none := by
  induction definitions using List.reverseRecOn generalizing name with
  | nil => rfl
  | append_singleton definitions d ih =>
    obtain ⟨key, p⟩ := d
    have hoptional : isOptional (defineAll Table.empty definitions) key =
        (merged definitions key).optional := by
      rw [isOptional, ih]
      split
      · rfl
      · rename_i hnot
        rw [optional_merged_of_not_mem hnot]
        rfl
    rw [defineAll_concat, define, Table.get?_insert, hoptional, ih, List.map_append,
      List.map_singleton]
    by_cases hname : name = key
    · rw [if_pos hname, hname, merged_concat_self, if_pos (by simp)]
    · rw [if_neg hname, merged_concat_of_ne hname]
      simp only [List.mem_append, List.mem_singleton, hname, or_false]

/-- Names stay where they came first. -/
theorem keys_defineAll (definitions : List (String × Production)) :
    (defineAll Table.empty definitions).keys = (definitions.map Prod.fst).eraseDups := by
  induction definitions using List.reverseRecOn with
  | nil => rfl
  | append_singleton definitions d ih =>
    rw [defineAll_concat, define, Table.keys_insert, ih, List.map_append, List.map_singleton,
      List.eraseDups_append, List.removeAll, List.filter_cons]
    simp only [List.mem_eraseDups]
    split
    · rename_i hmem
      simp [hmem]
    · rename_i hmem
      simp [hmem, List.eraseDups_cons]

/-- The names of definitions in order of first occurrence, with what the definitions make of them.
-/
theorem entries_defineAll (definitions : List (String × Production)) :
    (defineAll Table.empty definitions).entries =
      (definitions.map Prod.fst).eraseDups.map fun name => (name, merged definitions name) := by
  rw [← keys_defineAll]
  apply Table.entries_eq_map_keys
  intro name hname
  rw [keys_defineAll, List.mem_eraseDups] at hname
  rw [get?_defineAll, if_pos hname]

/-! ## Changing and taking out -/

variable {f : List (List String) → List (List String)} {keep : String → Bool}

theorem isOptional_map (g : Grammar) (name : String) :
    isOptional (g.map (Production.mapChoices f)) name = isOptional g name := by
  rw [isOptional, isOptional, Table.get?_map]
  cases g.get? name <;> rfl

theorem map_define (name : String) (p : Production) :
    (define g name p).map (Production.mapChoices f) =
      define (g.map (Production.mapChoices f)) name (p.mapChoices f) := by
  rw [define, define, Table.map_insert, isOptional_map]
  rfl

theorem filter_define_of_keep (h : keep name = true) :
    (define g name p).filter (fun k _ => keep k) =
      define (g.filter fun k _ => keep k) name p := by
  rw [define, define, Table.filter_insert_of_keep h, isOptional, isOptional, Table.get?_filter h]

theorem filter_define_of_drop (h : keep name = false) :
    (define g name p).filter (fun k _ => keep k) = g.filter fun k _ => keep k :=
  Table.filter_insert_of_drop h

/-- Changing alternatives and taking out names commutes with adding definitions. -/
theorem filter_map_defineAll (f : List (List String) → List (List String)) (keep : String → Bool)
    (g : Grammar) (definitions : List (String × Production)) :
    ((defineAll g definitions).map (Production.mapChoices f)).filter (fun k _ => keep k) =
      defineAll ((g.map (Production.mapChoices f)).filter fun k _ => keep k)
        ((definitions.filter fun d => keep d.1).map fun d => (d.1, d.2.mapChoices f)) := by
  induction definitions generalizing g with
  | nil => rfl
  | cons d definitions ih =>
    rw [defineAll_cons, ih, map_define]
    cases hkeep : keep d.1 with
    | true =>
      rw [filter_define_of_keep hkeep, List.filter_cons_of_pos (by simpa using hkeep),
        List.map_cons, defineAll_cons]
    | false =>
      rw [filter_define_of_drop hkeep, List.filter_cons_of_neg (by simp [hkeep])]

end Grammar

end CqlGlue.Listing
