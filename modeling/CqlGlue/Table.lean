/-!
# Tables in insertion order

A table maps texts to values and remembers the order in which its keys came. A key occurs
once; giving it a new value keeps its place. This is the order in which listings, generated
rules and configuration tables are printed, so it is part of the type and not of its users.

## Main definitions
* `Table` holds the entries and the proof that their keys differ.
* `Table.get?`, `Table.insert`, `Table.insertNew`, `Table.erase` are the operations on one key.
* `NameSet` is a set of texts in order of first mention.
-/

namespace CqlGlue

/-- Values under pairwise distinct keys, in order of first insertion. -/
structure Table (α : Type) where
  entries : List (String × α)
  distinct : (entries.map Prod.fst).Nodup

namespace Table

variable {α β : Type}

/-- The table without entries. -/
def empty : Table α := ⟨[], List.nodup_nil⟩

instance : Inhabited (Table α) := ⟨empty⟩

/-- The keys in order. -/
def keys (t : Table α) : List String := t.entries.map Prod.fst

/-- The values in order of their keys. -/
def values (t : Table α) : List α := t.entries.map Prod.snd

/-- The number of entries. -/
def size (t : Table α) : Nat := t.entries.length

/-- The value under a key. -/
def get? (t : Table α) (key : String) : Option α := t.entries.lookup key

/-- Whether the table has the key. -/
def contains (t : Table α) (key : String) : Bool := t.keys.contains key

/-- Gives the entries with this key a new value and leaves the others. -/
def replaceEntries (key : String) (a : α) (entries : List (String × α)) : List (String × α) :=
  entries.map fun e => if e.1 = key then (key, a) else e

theorem map_fst_replaceEntries (key : String) (a : α) (entries : List (String × α)) :
    (replaceEntries key a entries).map Prod.fst = entries.map Prod.fst := by
  simp only [replaceEntries, List.map_map]
  apply List.map_congr_left
  intro e _
  by_cases h : e.1 = key <;> simp [h]

/-- Sets the value of a key: in place when the key is known, at the end otherwise. -/
def insert (t : Table α) (key : String) (a : α) : Table α :=
  if h : key ∈ t.keys then
    ⟨replaceEntries key a t.entries, by rw [map_fst_replaceEntries]; exact t.distinct⟩
  else
    ⟨t.entries ++ [(key, a)], by
      rw [List.map_append, List.nodup_append]
      refine ⟨t.distinct, by simp, ?_⟩
      intro x hx y hy
      simp only [List.map_cons, List.map_nil, List.mem_singleton] at hy
      rintro rfl
      exact h (hy ▸ hx)⟩

/-- Sets the value of a key the table does not have, and nothing otherwise. -/
def insertNew (t : Table α) (key : String) (a : α) : Table α :=
  if t.contains key then t else t.insert key a

/-- Keeps the entries that pass. -/
def filter (t : Table α) (keep : String → α → Bool) : Table α :=
  ⟨t.entries.filter fun e => keep e.1 e.2,
    List.Sublist.nodup (List.Sublist.map _ List.filter_sublist) t.distinct⟩

/-- Takes a key out; the order of the others stays. -/
def erase (t : Table α) (key : String) : Table α := t.filter fun k _ => k != key

/-- Applies a function to every value. -/
def map (f : α → β) (t : Table α) : Table β :=
  ⟨t.entries.map fun e => (e.1, f e.2), by
    have : (t.entries.map fun e => (e.1, f e.2)).map Prod.fst = t.entries.map Prod.fst := by
      simp [List.map_map, Function.comp_def]
    rw [this]; exact t.distinct⟩

/-- Inserts the entries of a list one after the other. -/
def ofList (entries : List (String × α)) : Table α :=
  entries.foldl (fun t e => t.insert e.1 e.2) empty

@[simp] theorem keys_empty : (empty : Table α).keys = [] := rfl

theorem keys_insert (t : Table α) (key : String) (a : α) :
    (t.insert key a).keys = if key ∈ t.keys then t.keys else t.keys ++ [key] := by
  unfold insert
  split
  · exact map_fst_replaceEntries key a t.entries
  · simp [keys]

@[simp] theorem keys_map (f : α → β) (t : Table α) : (t.map f).keys = t.keys := by
  simp [keys, map, List.map_map, Function.comp_def]

end Table

/-- Texts in order of first mention, each once. -/
structure NameSet where
  names : List String
  distinct : names.Nodup

namespace NameSet

/-- Drops every mention of a name after its first. -/
def ofList (names : List String) : NameSet :=
  names.foldl
    (fun s name =>
      if h : name ∈ s.names then s
      else ⟨s.names ++ [name], by
        rw [List.nodup_append]
        refine ⟨s.distinct, by simp, ?_⟩
        rintro x hx y hy rfl
        exact h (List.mem_singleton.1 hy ▸ hx)⟩)
    ⟨[], List.nodup_nil⟩

/-- Whether the name is in the set. -/
def contains (s : NameSet) (name : String) : Bool := s.names.contains name

end NameSet

end CqlGlue
