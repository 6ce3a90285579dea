import CqlGlue.Table

/-!
# Looking up what a table holds

A table is used by looking keys up and filled by inserting entries one at a time. Since its
keys differ, looking up a key and holding an entry under it are the same thing.

## Main statements
* `get?_eq_some_iff` and `get?_eq_none_iff` turn a look-up into membership.
* `mem_keys_insert` and `mem_entries_insert` say what an insertion can add.
-/

namespace CqlGlue.Table

variable {α β : Type} {t : Table α} {key : String} {a : α}

/-- Tables with the same entries are the same. -/
theorem eq_of_entries_eq {t t' : Table α} (h : t.entries = t'.entries) : t = t' := by
  cases t
  cases t'
  cases h
  rfl

theorem mem_keys_of_mem_entries (h : (key, a) ∈ t.entries) : key ∈ t.keys :=
  List.mem_map.2 ⟨(key, a), h, rfl⟩

/-- A key is there when some value is under it. -/
theorem mem_keys_iff : key ∈ t.keys ↔ ∃ a, (key, a) ∈ t.entries := by
  constructor
  · intro h
    obtain ⟨e, he, rfl⟩ := List.mem_map.1 h
    exact ⟨e.2, he⟩
  · rintro ⟨a, h⟩
    exact mem_keys_of_mem_entries h

/-- In a list whose keys differ every entry is found. -/
theorem lookup_eq_some_of_mem {entries : List (String × α)}
    (hd : (entries.map Prod.fst).Nodup) (h : (key, a) ∈ entries) :
    entries.lookup key = some a := by
  induction entries with
  | nil => simp at h
  | cons e entries ih =>
    rw [List.map_cons, List.nodup_cons] at hd
    rcases List.mem_cons.1 h with rfl | hrest
    · exact List.lookup_cons_self
    · have hne : (key == e.1) = false :=
        beq_eq_false_iff_ne.2 fun hkey => hd.1 (List.mem_map.2 ⟨(key, a), hrest, hkey⟩)
      rw [List.lookup_cons, hne]
      exact ih hd.2 hrest

/-- Where the keys of a list differ, each key is that of one member. -/
theorem filter_key_eq_singleton {γ : Type} [BEq β] [LawfulBEq β] {key : γ → β} {items : List γ}
    (hd : (items.map key).Nodup) {c : γ} (h : c ∈ items) :
    items.filter (fun d => key d == key c) = [c] := by
  induction items with
  | nil => simp at h
  | cons d items ih =>
    rw [List.map_cons, List.nodup_cons] at hd
    rcases List.mem_cons.1 h with rfl | h
    · have hnone : items.filter (fun d => key d == key c) = [] := by
        rw [List.filter_eq_nil_iff]
        intro d hd' heq
        exact hd.1 (List.mem_map.2 ⟨d, hd', beq_iff_eq.1 heq⟩)
      rw [List.filter_cons_of_pos (by simp), hnone]
    · have hne : key d ≠ key c := fun heq => hd.1 (List.mem_map.2 ⟨c, h, heq.symm⟩)
      rw [List.filter_cons_of_neg (by simpa using hne), ih hd.2 h]

/-- The keys of a list and other keys differ where no member has one of those. -/
theorem nodup_map_append_iff {γ : Type} {key : γ → β} {items : List γ} {others : List β}
    (hd : others.Nodup) : (items.map key ++ others).Nodup ↔
      (items.map key).Nodup ∧ ∀ c ∈ items, key c ∉ others := by
  rw [List.nodup_append]
  constructor
  · rintro ⟨hitems, -, hapart⟩
    exact ⟨hitems, fun c hc hmem => hapart _ (List.mem_map_of_mem hc) _ hmem rfl⟩
  · rintro ⟨hitems, hapart⟩
    refine ⟨hitems, hd, ?_⟩
    rintro _ hx _ hmem rfl
    obtain ⟨c, hc, rfl⟩ := List.mem_map.1 hx
    exact hapart c hc hmem

theorem mem_of_lookup_eq_some {entries : List (String × α)}
    (h : entries.lookup key = some a) : (key, a) ∈ entries := by
  obtain ⟨before, after, rfl, -⟩ := List.lookup_eq_some_iff.1 h
  simp

theorem get?_eq_some_iff : t.get? key = some a ↔ (key, a) ∈ t.entries :=
  ⟨mem_of_lookup_eq_some, lookup_eq_some_of_mem t.distinct⟩

theorem mem_values_of_get? (h : t.get? key = some a) : a ∈ t.values :=
  List.mem_map.2 ⟨(key, a), get?_eq_some_iff.1 h, rfl⟩

theorem get?_eq_none_iff : t.get? key = none ↔ key ∉ t.keys := by
  rw [mem_keys_iff]
  constructor
  · rintro h ⟨a, ha⟩
    rw [get?_eq_some_iff.2 ha] at h
    exact Option.some_ne_none a h
  · intro h
    cases hget : t.get? key with
    | none => rfl
    | some a => exact absurd ⟨a, get?_eq_some_iff.1 hget⟩ h

theorem contains_eq_true_iff : t.contains key = true ↔ key ∈ t.keys := by
  rw [contains, List.contains_iff_mem]

/-- A table is the list of its keys with what is found under them. -/
theorem entries_eq_map_keys {f : String → α} (h : ∀ key ∈ t.keys, t.get? key = some (f key)) :
    t.entries = t.keys.map fun key => (key, f key) := by
  have hentry : ∀ e ∈ t.entries, (e.1, f e.1) = e := by
    intro e he
    have hfound : t.get? e.1 = some e.2 := get?_eq_some_iff.2 he
    rw [h e.1 (List.mem_map_of_mem he)] at hfound
    exact Prod.ext rfl (Option.some.inj hfound)
  rw [keys, List.map_map]
  exact ((List.map_congr_left hentry).trans (List.map_id' _)).symm

/-! ## Insertion -/

theorem mem_keys_insert {other : String} :
    other ∈ (t.insert key a).keys ↔ other = key ∨ other ∈ t.keys := by
  rw [keys_insert]
  split
  · rename_i h
    constructor
    · exact Or.inr
    · rintro (rfl | hother)
      · exact h
      · exact hother
  · rw [List.mem_append, List.mem_singleton, or_comm]

theorem mem_entries_insert {e : String × α} (h : e ∈ (t.insert key a).entries) :
    e = (key, a) ∨ e ∈ t.entries := by
  unfold insert at h
  split at h
  · obtain ⟨e', he', rfl⟩ := List.mem_map.1 h
    split
    · exact .inl rfl
    · exact .inr he'
  · rw [List.mem_append, List.mem_singleton] at h
    exact h.symm

theorem mem_keys_insertNew {other : String} :
    other ∈ (t.insertNew key a).keys ↔ other = key ∨ other ∈ t.keys := by
  unfold insertNew
  split
  · rename_i h
    constructor
    · exact Or.inr
    · rintro (rfl | hother)
      · exact contains_eq_true_iff.1 h
      · exact hother
  · exact mem_keys_insert

theorem mem_entries_insertNew {e : String × α} (h : e ∈ (t.insertNew key a).entries) :
    e = (key, a) ∨ e ∈ t.entries := by
  unfold insertNew at h
  split at h
  · exact .inr h
  · exact mem_entries_insert h

/-! ## Mapping and filtering -/

theorem mem_entries_map {f : α → β} {b : β} :
    (key, b) ∈ (t.map f).entries ↔ ∃ a, (key, a) ∈ t.entries ∧ f a = b := by
  simp only [map, List.mem_map, Prod.mk.injEq, Prod.exists]
  constructor
  · rintro ⟨k, a, h, rfl, hb⟩
    exact ⟨a, h, hb⟩
  · rintro ⟨a, h, hb⟩
    exact ⟨key, a, h, rfl, hb⟩

theorem mem_entries_filter {keep : String → α → Bool} :
    (key, a) ∈ (t.filter keep).entries ↔ (key, a) ∈ t.entries ∧ keep key a = true := by
  simp only [filter, List.mem_filter]

theorem get?_map (f : α → β) (key : String) : (t.map f).get? key = (t.get? key).map f := by
  have hlookup : ∀ entries : List (String × α),
      (entries.map fun e => (e.1, f e.2)).lookup key = (entries.lookup key).map f := by
    intro entries
    induction entries with
    | nil => rfl
    | cons e entries ih =>
      rw [List.map_cons, List.lookup_cons, List.lookup_cons, ih]
      cases key == e.1 <;> rfl
  exact hlookup t.entries

theorem mem_keys_filter {keep : String → Bool} :
    key ∈ (t.filter fun k _ => keep k).keys ↔ key ∈ t.keys ∧ keep key = true := by
  simp only [mem_keys_iff, mem_entries_filter, exists_and_right]

theorem get?_filter {keep : String → Bool} (h : keep key = true) :
    (t.filter fun k _ => keep k).get? key = t.get? key := by
  cases hget : t.get? key with
  | none =>
    rw [get?_eq_none_iff] at hget ⊢
    exact fun hkey => hget (mem_keys_filter.1 hkey).1
  | some a => exact get?_eq_some_iff.2 (mem_entries_filter.2 ⟨get?_eq_some_iff.1 hget, h⟩)

/-! ## Insertion with other operations -/

theorem lookup_replaceEntries {entries : List (String × α)} {other : String} :
    (replaceEntries key a entries).lookup other =
      if other = key then (entries.lookup key).map fun _ => a else entries.lookup other := by
  induction entries with
  | nil => simp [replaceEntries]
  | cons e entries ih =>
    rw [replaceEntries, List.map_cons, List.lookup_cons, ← replaceEntries, ih,
      List.lookup_cons, List.lookup_cons]
    by_cases he : e.1 = key
    · rw [if_pos he, he]
      by_cases hother : other = key
      · simp [hother]
      · simp [hother, beq_eq_false_iff_ne.2 hother]
    · rw [if_neg he]
      by_cases hother : other = key
      · rw [if_pos hother, if_pos hother, hother, beq_eq_false_iff_ne.2 (Ne.symm he)]
      · rw [if_neg hother, if_neg hother]

theorem entries_insert_of_not_mem (h : key ∉ t.keys) :
    (t.insert key a).entries = t.entries ++ [(key, a)] := by
  rw [insert, dif_neg h]

theorem entries_insert_of_mem (h : key ∈ t.keys) :
    (t.insert key a).entries = replaceEntries key a t.entries := by
  rw [insert, dif_pos h]

theorem get?_insert {other : String} :
    (t.insert key a).get? other = if other = key then some a else t.get? other := by
  by_cases h : key ∈ t.keys
  · obtain ⟨b, hb⟩ := mem_keys_iff.1 h
    have hlookup : t.entries.lookup key = some b := get?_eq_some_iff.2 hb
    rw [insert, dif_pos h, get?, lookup_replaceEntries, hlookup]
    rfl
  · have hlookup : t.entries.lookup key = none := get?_eq_none_iff.2 h
    rw [insert, dif_neg h, get?, List.lookup_append, List.lookup_cons]
    by_cases hother : other = key
    · rw [hother, hlookup]
      simp
    · rw [if_neg hother, beq_eq_false_iff_ne.2 hother]
      exact Option.or_none

/-- Changing all values commutes with an insertion. -/
theorem map_insert (f : α → β) : (t.insert key a).map f = (t.map f).insert key (f a) := by
  apply eq_of_entries_eq
  by_cases h : key ∈ t.keys
  · have hmap : key ∈ (t.map f).keys := by rwa [keys_map]
    rw [insert, insert, dif_pos h, dif_pos hmap]
    simp only [map, replaceEntries, List.map_map]
    apply List.map_congr_left
    intro e _
    by_cases he : e.1 = key
    · simp [he]
    · simp [he]
  · have hmap : key ∉ (t.map f).keys := by rwa [keys_map]
    rw [insert, insert, dif_neg h, dif_neg hmap]
    simp only [map, List.map_append, List.map_cons, List.map_nil]

section

variable {keep : String → Bool}

theorem filter_insert_of_keep (h : keep key = true) :
    (t.insert key a).filter (fun k _ => keep k) =
      (t.filter fun k _ => keep k).insert key a := by
  apply eq_of_entries_eq
  by_cases hkey : key ∈ t.keys
  · rw [insert, insert, dif_pos hkey, dif_pos (mem_keys_filter.2 ⟨hkey, h⟩)]
    simp only [filter, replaceEntries, List.filter_map]
    congr 1
    apply List.filter_congr
    intro e _
    by_cases he : e.1 = key
    · simp [he]
    · simp [he]
  · rw [insert, insert, dif_neg hkey, dif_neg fun hmem => hkey (mem_keys_filter.1 hmem).1]
    simp only [filter, List.filter_append, List.filter_cons, h, if_true, List.filter_nil]

/-- A key that does not pass is as well not inserted. -/
theorem filter_insert_of_drop (h : keep key = false) :
    (t.insert key a).filter (fun k _ => keep k) = t.filter fun k _ => keep k := by
  apply eq_of_entries_eq
  by_cases hkey : key ∈ t.keys
  · rw [insert, dif_pos hkey]
    simp only [filter, replaceEntries]
    induction t.entries with
    | nil => rfl
    | cons e entries ih =>
      by_cases he : e.1 = key
      · simp [he, h, ih]
      · simp [he, List.filter_cons, ih]
  · rw [insert, dif_neg hkey]
    simp only [filter, List.filter_append, List.filter_cons, h, Bool.false_eq_true, if_false,
      List.filter_nil, List.append_nil]

end

end CqlGlue.Table
