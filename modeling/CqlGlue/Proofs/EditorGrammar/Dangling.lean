import CqlGlue.EditorGrammar.Printer
import CqlGlue.Listing.Reader
import CqlGlue.Proofs.EditorGrammar.Splice
import Mathlib.Logic.Relation

/-!
# Names that splicing leaves behind

Splicing puts the first alternative of a suppressed production in the place of its name and takes
the production out of the listing. What comes in is not spliced again. So where one suppressed
production mentions another in its first alternative, the name of the second is left in the
productions that use the first, although its production is gone. That chains of suppressed
productions have an end does not help: only the first step of a chain is taken.

## Main definitions
* `IsRemoved` are the names whose productions splicing takes out.
* `Chains` says that one of them leads to another, `IsAcyclic` that no chain leads back.
* `LeavesNothing` says that no name of a removed production is left.

## Main statements
* `mem_mentioned_splice_iff` names everything that is left.
* `leavesNothing_iff` says when nothing is left, and `not_leavesNothing_temporary` is a listing
  without cycles for which something is.
-/

namespace CqlGlue.EditorGrammar

open Text Listing

variable {config : Config} {g : Grammar} {name t : String}

/-! ## Removed productions -/

/-- The listing has a production of the name, and splicing takes it out. -/
def IsRemoved (config : Config) (g : Grammar) (name : String) : Prop :=
  name ∈ g.keys ∧ name ∉ (splice config g).keys

instance (config : Config) (g : Grammar) (name : String) : Decidable (IsRemoved config g name) :=
  inferInstanceAs (Decidable (_ ∧ _))

theorem mem_keys_splice_iff :
    name ∈ (splice config g).keys ↔ name ∈ g.keys ∧ ¬ IsSuppressed config g name := by
  rw [Table.mem_keys_iff, Table.mem_keys_iff]
  constructor
  · rintro ⟨p, hp⟩
    obtain ⟨hkept, q, hq, -⟩ := get?_splice.1 (Table.get?_eq_some_iff.2 hp)
    exact ⟨⟨q, Table.get?_eq_some_iff.1 hq⟩, hkept⟩
  · rintro ⟨⟨q, hq⟩, hkept⟩
    exact ⟨_, Table.get?_eq_some_iff.1 (get?_splice.2 ⟨hkept, q, Table.get?_eq_some_iff.2 hq, rfl⟩)⟩

/-- The removed productions are the suppressed ones. -/
theorem isRemoved_iff : IsRemoved config g name ↔ IsSuppressed config g name := by
  rw [IsRemoved, mem_keys_splice_iff]
  constructor
  · rintro ⟨hkey, hgone⟩
    apply Decidable.byContradiction
    exact fun hkept => hgone ⟨hkey, hkept⟩
  · intro h
    exact ⟨h.2, fun hkept => hkept.2 h⟩

/-- The first alternative of the production of a name. It is empty where there is none. -/
def firstChoice (g : Grammar) (name : String) : List String :=
  ((g.get? name).map fun p => p.choices.head?.getD []).getD []

/-- A removed name is replaced by its first alternative. -/
theorem lookup_replacements_of_isRemoved (h : IsRemoved config g name) :
    (replacements config g).lookup name = some (firstChoice g name) := by
  obtain ⟨p, hp⟩ := Table.mem_keys_iff.1 h.1
  rw [lookup_replacements, if_pos (isRemoved_iff.1 h).1, firstChoice,
    Table.get?_eq_some_iff.2 hp]
  rfl

/-- The productions that stay, as they are before splicing. -/
def kept (config : Config) (g : Grammar) : Grammar :=
  g.filter fun name _ => (splice config g).contains name

theorem mem_mentioned_kept :
    t ∈ mentioned (kept config g) ↔
      ∃ name p, name ∈ (splice config g).keys ∧ g.get? name = some p ∧
        ∃ choice ∈ p.choices, t ∈ choice := by
  rw [mem_mentioned]
  refine exists₂_congr fun name p => ?_
  rw [Table.get?_eq_some_iff, kept, Table.mem_entries_filter, Table.contains_eq_true_iff,
    Table.get?_eq_some_iff, and_comm (a := (name, p) ∈ g.entries), and_assoc]

/-! ## Chains -/

/-- The first alternative of a removed production mentions another removed production. -/
def Chains (config : Config) (g : Grammar) (name other : String) : Prop :=
  IsRemoved config g name ∧ IsRemoved config g other ∧ other ∈ firstChoice g name

/-- No chain of removed productions leads back to where it began. -/
def IsAcyclic (config : Config) (g : Grammar) : Prop :=
  ∀ name, ¬ Relation.TransGen (Chains config g) name name

/-- The productions that stay mention none that has been removed. -/
def LeavesNothing (config : Config) (g : Grammar) : Prop :=
  ∀ t ∈ mentioned (splice config g), ¬ IsRemoved config g t

/-- The removed names that are left are those one step behind the ones that were there. -/
theorem mem_mentioned_splice_iff (hremoved : IsRemoved config g t) :
    t ∈ mentioned (splice config g) ↔
      ∃ name ∈ mentioned (kept config g), Chains config g name t := by
  constructor
  · intro ht
    obtain ⟨rule, p, hp, choice, hchoice, htc⟩ := mem_mentioned.1 ht
    have hrule : rule ∈ (splice config g).keys :=
      Table.mem_keys_of_mem_entries (Table.get?_eq_some_iff.1 hp)
    obtain ⟨-, q, hq, rfl⟩ := get?_splice.1 hp
    obtain ⟨c, hc, rfl⟩ := List.mem_map.1 hchoice
    rcases mem_spliceTokens.1 htc with ⟨-, hnone⟩ | ⟨name, hname, c', hlookup, htc'⟩
    · -- a name that was there itself has been replaced
      rw [lookup_replacements_of_isRemoved hremoved] at hnone
      cases hnone
    · have hgone : IsRemoved config g name := by
        apply Decidable.byContradiction
        intro hkept
        rw [lookup_replacements_eq_none_iff.2 (mt isRemoved_iff.2 hkept)] at hlookup
        cases hlookup
      rw [lookup_replacements_of_isRemoved hgone] at hlookup
      cases hlookup
      exact ⟨name, mem_mentioned_kept.2 ⟨rule, q, hrule, hq, c, hc, hname⟩, hgone, hremoved, htc'⟩
  · rintro ⟨name, hname, hgone, -, htc⟩
    obtain ⟨rule, q, hrule, hq, c, hc, hnc⟩ := mem_mentioned_kept.1 hname
    have hp : (splice config g).get? rule = some (spliceProduction (replacements config g) q) :=
      get?_splice.2 ⟨(mem_keys_splice_iff.1 hrule).2, q, hq, rfl⟩
    refine mem_mentioned_of_mem_choice hp (List.mem_map_of_mem hc) (mem_spliceTokens.2 (.inr ?_))
    exact ⟨name, hnc, _, lookup_replacements_of_isRemoved hgone, htc⟩

/-- Nothing is left if and only if no removed production that a remaining one mentions leads to
another. -/
theorem leavesNothing_iff (config : Config) (g : Grammar) :
    LeavesNothing config g ↔
      ∀ name ∈ mentioned (kept config g), ∀ other, ¬ Chains config g name other := by
  constructor
  · intro h name hname other hchain
    exact h other ((mem_mentioned_splice_iff hchain.2.1).2 ⟨name, hname, hchain⟩) hchain.2.1
  · intro h t ht hremoved
    obtain ⟨name, hname, hchain⟩ := (mem_mentioned_splice_iff hremoved).1 ht
    exact h name hname t hchain

/-! ## A chain of two -/

/-- A listing with a chain from `create_prefix` to `temp`. -/
def temporaryText : String :=
  "create_stmt ::= create_prefix name\ncreate_prefix ::= \"CREATE\" temp\ntemp ::= \"TEMP\"\n"

/-- What is read from it. -/
def temporary : Grammar where
  entries := [("create_stmt", ⟨[["create_prefix", "name"]], false⟩),
    ("create_prefix", ⟨[["\"CREATE\"", "temp"]], false⟩), ("temp", ⟨[["\"TEMP\""]], false⟩)]
  distinct := by decide

theorem parse_temporaryText : Grammar.parse temporaryText = temporary :=
  Table.eq_of_entries_eq (by decide +kernel)

/-- Both productions of the chain are removed, the chain leads nowhere else, and the rule of
`create_stmt` refers to the second. -/
theorem not_leavesNothing_temporary :
    let config := suppressing ["create_prefix", "temp"]
    let g := Grammar.parse temporaryText
    IsAcyclic config g ∧ ¬ LeavesNothing config g ∧
      generatedRules config (build config g) =
        [("create_stmt", "$ => seq($.CREATE, $.temp, $.name)"),
          ("CREATE", "$ => CI('create')")] := by
  dsimp only
  rw [parse_temporaryText]
  let config := suppressing ["create_prefix", "temp"]
  have hremoved : ∀ name, IsRemoved config temporary name →
      name = "create_prefix" ∨ name = "temp" := by
    intro name hname
    have hkeys : ∀ key ∈ temporary.keys, IsRemoved config temporary key →
        key = "create_prefix" ∨ key = "temp" := by decide +kernel
    exact hkeys name hname.1 hname
  have hchains : ∀ name other, Chains config temporary name other →
      name = "create_prefix" ∧ other = "temp" := by
    rintro name other ⟨hname, hother, hmem⟩
    rcases hremoved name hname with rfl | rfl
    · rcases hremoved other hother with rfl | rfl
      · exact absurd hmem (by decide)
      · exact ⟨rfl, rfl⟩
    · rcases hremoved other hother with rfl | rfl
      · exact absurd hmem (by decide)
      · exact absurd hmem (by decide)
  refine ⟨fun name hcycle => ?_, fun hnothing => ?_, by decide +kernel⟩
  · obtain ⟨other, hfirst, -⟩ := Relation.TransGen.head'_iff.1 hcycle
    obtain ⟨last, -, hlast⟩ := Relation.TransGen.tail'_iff.1 hcycle
    have hbegin := (hchains name other hfirst).1
    have hend := (hchains last name hlast).2
    exact absurd (hbegin.symm.trans hend) (by decide)
  · have hchain : Chains config temporary "create_prefix" "temp" := by
      refine ⟨?_, ?_, ?_⟩ <;> decide +kernel
    exact (leavesNothing_iff config temporary).1 hnothing "create_prefix" (by decide +kernel)
      "temp" hchain

end CqlGlue.EditorGrammar
