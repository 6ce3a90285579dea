import CqlGlue.Proofs.Json.Alike
import CqlGlue.Schema.Reader

/-!
# Schemas do not depend on order

The members of the objects in a schema may stand in any order, and among them members of names
that the schema has no use for, with values of any kind and depth. The same schema is read from
all these texts.

## Main definitions
* `AlikeSchema` relates values that are the same schema in another order, `AlikeTexts` texts.
* `argumentSlots` and so on are the places of the fields in the drafts.

## Main statements
* `preserves_schema`: the same is read from values that are alike.
* `parse_eq_of_alikeTexts`: what is read from a text is read from every text alike to it.
* `not_parse_surrogate`: the key of a member has to denote characters, also where no one asks for
  the member.
-/

namespace CqlGlue

open Json Json.Decoder

/-! ## Fields of any kind -/

theorem preserves_text : Preserves Same fun _ => text :=
  preserves_same fun hv _ => hv.exists_reads_text

theorem preserves_word {α : Type} (words : List (String × α)) : Preserves Same (word words) :=
  preserves_same fun hv => hv.exists_reads_word words

theorem preserves_flag : Preserves Same flag :=
  preserves_same fun hv => hv.exists_reads_flag

theorem preserves_value : Preserves Same Decoder.value :=
  preserves_same fun hv => hv.exists_reads_value

theorem preserves_nullable_text : Preserves Same fun _ => nullable text := by
  refine preserves_same fun hv _ => ?_
  obtain ⟨c, cs, rfl, -⟩ := hv.exists_cons
  by_cases hn : c = 'n'
  · subst hn
    cases hv.eq_null
    exact ⟨_, reads_nullable_null text⟩
  · obtain ⟨r, hr⟩ := hv.exists_reads_text
    exact ⟨_, hr.nullable hv (by simpa using hn)⟩

/-! ## Arguments, columns and attributes -/

/-- The fields of an argument. -/
def argumentSlots : List (Slot ArgumentDraft) := [
  ⟨"name", String, (·.name.isSome), fun a d => { d with name := some a }, fun _ => text,
    fun _ _ => rfl⟩,
  ⟨"type", CoreType, (·.type.isSome), fun a d => { d with type := some a }, word CoreType.named,
    fun _ _ => rfl⟩,
  ⟨"isNotNull", Bool, (·.isNotNull.isSome), fun a d => { d with isNotNull := some a }, flag,
    fun _ _ => rfl⟩,
  ⟨"binding", Binding, (·.binding.isSome), fun a d => { d with binding := some a },
    word Binding.named, fun _ _ => rfl⟩,
  ⟨"kind", Option String, (·.kind.isSome), fun a d => { d with kind := some a },
    fun _ => nullable text, fun _ _ => rfl⟩,
  ⟨"isSensitive", Bool, (·.isSensitive.isSome), fun a d => { d with isSensitive := some a }, flag,
    fun _ _ => rfl⟩]

theorem argumentSlots_apart : argumentSlots.Pairwise Slot.Apart := by
  simp only [argumentSlots, List.pairwise_cons, List.forall_mem_cons, List.not_mem_nil,
    false_implies, implies_true, and_true, List.Pairwise.nil]
  repeat' apply And.intro
  all_goals exact ⟨fun _ _ => rfl, fun _ _ => rfl, fun _ _ _ => rfl⟩

/-- Arguments that are alike. -/
def AlikeArgument : List Char → List Char → Prop :=
  AlikeRecord (argumentShape.fields.map Decoder.Field.name) fun _ => Same

theorem preserves_argument : Preserves AlikeArgument (record argumentShape) := by
  refine preserves_record argumentSlots rfl argumentSlots_apart ?_
  simp only [argumentSlots, List.forall_mem_cons]
  exact ⟨preserves_text, preserves_word _, preserves_flag, preserves_word _,
    preserves_nullable_text, preserves_flag, List.forall_mem_nil _⟩

/-- The fields of a column. -/
def columnSlots : List (Slot ColumnDraft) := [
  ⟨"name", String, (·.name.isSome), fun a d => { d with name := some a }, fun _ => text,
    fun _ _ => rfl⟩,
  ⟨"type", CoreType, (·.type.isSome), fun a d => { d with type := some a }, word CoreType.named,
    fun _ _ => rfl⟩,
  ⟨"isNotNull", Bool, (·.isNotNull.isSome), fun a d => { d with isNotNull := some a }, flag,
    fun _ _ => rfl⟩,
  ⟨"kind", Option String, (·.kind.isSome), fun a d => { d with kind := some a },
    fun _ => nullable text, fun _ _ => rfl⟩,
  ⟨"isSensitive", Bool, (·.isSensitive.isSome), fun a d => { d with isSensitive := some a }, flag,
    fun _ _ => rfl⟩]

theorem columnSlots_apart : columnSlots.Pairwise Slot.Apart := by
  simp only [columnSlots, List.pairwise_cons, List.forall_mem_cons, List.not_mem_nil,
    false_implies, implies_true, and_true, List.Pairwise.nil]
  repeat' apply And.intro
  all_goals exact ⟨fun _ _ => rfl, fun _ _ => rfl, fun _ _ _ => rfl⟩

/-- Columns that are alike. -/
def AlikeColumn : List Char → List Char → Prop :=
  AlikeRecord (columnShape.fields.map Decoder.Field.name) fun _ => Same

theorem preserves_column : Preserves AlikeColumn (record columnShape) := by
  refine preserves_record columnSlots rfl columnSlots_apart ?_
  simp only [columnSlots, List.forall_mem_cons]
  exact ⟨preserves_text, preserves_word _, preserves_flag, preserves_nullable_text,
    preserves_flag, List.forall_mem_nil _⟩

/-- The fields of an attribute. -/
def attributeSlots : List (Slot AttributeDraft) := [
  ⟨"name", String, (·.name.isSome), fun a d => { d with name := some a }, fun _ => text,
    fun _ _ => rfl⟩,
  ⟨"value", Json.Value, (·.value.isSome), fun a d => { d with value := some a }, Decoder.value,
    fun _ _ => rfl⟩]

theorem attributeSlots_apart : attributeSlots.Pairwise Slot.Apart := by
  simp only [attributeSlots, List.pairwise_cons, List.forall_mem_cons, List.not_mem_nil,
    false_implies, implies_true, and_true, List.Pairwise.nil]
  exact ⟨fun _ _ => rfl, fun _ _ => rfl, fun _ _ _ => rfl⟩

/-- Attributes that are alike. Their values are kept whole, so these are the same. -/
def AlikeAttribute : List Char → List Char → Prop :=
  AlikeRecord (attributeShape.fields.map Decoder.Field.name) fun _ => Same

theorem preserves_attribute : Preserves AlikeAttribute (record attributeShape) := by
  refine preserves_record attributeSlots rfl attributeSlots_apart ?_
  simp only [attributeSlots, List.forall_mem_cons]
  exact ⟨preserves_text, preserves_value, List.forall_mem_nil _⟩

/-! ## Procedures and schemas -/

/-- The fields of a procedure. -/
def procedureSlots : List (Slot ProcedureDraft) := [
  ⟨"name", String, (·.name.isSome), fun a d => { d with name := some a }, fun _ => text,
    fun _ _ => rfl⟩,
  ⟨"args", List Argument, (·.args.isSome), fun a d => { d with args := some a },
    list (record argumentShape), fun _ _ => rfl⟩,
  ⟨"projection", Option (List Column), (·.projection.isSome),
    fun a d => { d with projection := some a },
    fun depth => nullable (list (record columnShape) depth), fun _ _ => rfl⟩,
  ⟨"attributes", List Attribute, (·.attributes.isSome), fun a d => { d with attributes := some a },
    list (record attributeShape), fun _ _ => rfl⟩,
  ⟨"usesDatabase", Bool, (·.usesDatabase.isSome), fun a d => { d with usesDatabase := some a },
    flag, fun _ _ => rfl⟩,
  ⟨"hasOutResult", Bool, (·.hasOutResult.isSome), fun a d => { d with hasOutResult := some a },
    flag, fun _ _ => rfl⟩]

theorem procedureSlots_apart : procedureSlots.Pairwise Slot.Apart := by
  simp only [procedureSlots, List.pairwise_cons, List.forall_mem_cons, List.not_mem_nil,
    false_implies, implies_true, and_true, List.Pairwise.nil]
  repeat' apply And.intro
  all_goals exact ⟨fun _ _ => rfl, fun _ _ => rfl, fun _ _ _ => rfl⟩

/-- Fields of a procedure that are alike. -/
def AlikeProcedureField (name : String) : List Char → List Char → Prop :=
  match name with
  | "args" => AlikeList AlikeArgument
  | "projection" => AlikeList AlikeColumn
  | "attributes" => AlikeList AlikeAttribute
  | _ => Same

/-- Procedures that are alike. -/
def AlikeProcedure : List Char → List Char → Prop :=
  AlikeRecord (procedureShape.fields.map Decoder.Field.name) AlikeProcedureField

theorem preserves_procedure : Preserves AlikeProcedure (record procedureShape) := by
  refine preserves_record procedureSlots rfl procedureSlots_apart ?_
  simp only [procedureSlots, List.forall_mem_cons]
  exact ⟨preserves_text, preserves_list preserves_argument,
    preserves_nullable_list preserves_column, preserves_list preserves_attribute, preserves_flag,
    preserves_flag, List.forall_mem_nil _⟩

/-- The sections of a schema. -/
def schemaSlots : List (Slot SchemaDraft) := [
  ⟨"queries", List Procedure, (·.queries.isSome), fun a d => { d with queries := some a },
    list (record procedureShape), fun _ _ => rfl⟩,
  ⟨"deletes", List Procedure, (·.deletes.isSome), fun a d => { d with deletes := some a },
    list (record procedureShape), fun _ _ => rfl⟩,
  ⟨"inserts", List Procedure, (·.inserts.isSome), fun a d => { d with inserts := some a },
    list (record procedureShape), fun _ _ => rfl⟩,
  ⟨"generalInserts", List Procedure, (·.generalInserts.isSome),
    fun a d => { d with generalInserts := some a }, list (record procedureShape), fun _ _ => rfl⟩,
  ⟨"updates", List Procedure, (·.updates.isSome), fun a d => { d with updates := some a },
    list (record procedureShape), fun _ _ => rfl⟩,
  ⟨"general", List Procedure, (·.general.isSome), fun a d => { d with general := some a },
    list (record procedureShape), fun _ _ => rfl⟩]

theorem schemaSlots_apart : schemaSlots.Pairwise Slot.Apart := by
  simp only [schemaSlots, List.pairwise_cons, List.forall_mem_cons, List.not_mem_nil,
    false_implies, implies_true, and_true, List.Pairwise.nil]
  repeat' apply And.intro
  all_goals exact ⟨fun _ _ => rfl, fun _ _ => rfl, fun _ _ _ => rfl⟩

/-- Schemas that are alike. -/
def AlikeSchema : List Char → List Char → Prop :=
  AlikeRecord (schemaShape.fields.map Decoder.Field.name) fun _ => AlikeList AlikeProcedure

theorem preserves_schema : Preserves AlikeSchema (record schemaShape) := by
  refine preserves_record schemaSlots rfl schemaSlots_apart ?_
  have hsection := preserves_list preserves_procedure
  simp only [schemaSlots, List.forall_mem_cons]
  exact ⟨hsection, hsection, hsection, hsection, hsection, hsection,
    List.forall_mem_nil _⟩

/-! ## Texts -/

/-- Two texts are the same schema, up to the order of the members of its objects and to members of
names that a schema does not use. -/
def AlikeTexts (text text' : String) : Prop :=
  ∃ x x' : Item, x.IsSpaced ∧ x'.IsSpaced ∧ text.toList = x.text ∧ text'.toList = x'.text ∧
    AlikeSchema x.value x'.value

/-- A schema of one procedure. -/
def directText : String :=
  "\x7b\"queries\": [\x7b\"name\": \"a\",\"usesDatabase\": false\x7d]\x7d"

/-- The same schema with the members of the procedure in another order, and one more in each
object. -/
def reorderedText : String :=
  "\x7b\"version\": [],\"queries\": [\x7b\"usesDatabase\": false,\"note\": \x7b\x7d," ++
    "\"name\": \"a\"\x7d]\x7d"

theorem alikeTexts_reordered : AlikeTexts directText reorderedText := by
  let name := ("name", ['"', 'a', '"'])
  let uses := ("usesDatabase", ['f', 'a', 'l', 's', 'e'])
  let note := ("note", objectText [] [])
  let version := ("version", listText [] [])
  let procedure := plainObject [name, uses]
  let procedure' := plainObject [uses, note, name]
  have hprocedure : AlikeProcedure procedure procedure' := by
    refine alikeRecord_plainObject [(name.1, name.2, name.2), (uses.1, uses.2, uses.2)] [] [note]
      (by decide) (by decide) ?_ ?_
    · simp only [List.forall_mem_cons]
      exact ⟨⟨by decide, by decide, .text (.plain (by decide) .nil), rfl⟩,
        ⟨by decide, by decide, .no, rfl⟩, List.forall_mem_nil _⟩
    · exact List.forall_mem_singleton.2
        ⟨by decide, by decide, .object isBlanks_nil (List.forall_mem_nil _)
          (List.forall_mem_nil _) (List.forall_mem_nil _)⟩
  let queries := ("queries", listText [⟨[], procedure, []⟩] [])
  let queries' := ("queries", listText [⟨[], procedure', []⟩] [])
  have hschema : AlikeSchema (plainObject [queries]) (plainObject [version, queries']) := by
    refine alikeRecord_plainObject [(queries.1, queries.2, queries'.2)] [] [version]
      (by decide) (by decide) ?_ ?_
    · exact List.forall_mem_singleton.2 ⟨by decide, by decide, alikeList_singleton hprocedure⟩
    · exact List.forall_mem_singleton.2
        ⟨by decide, by decide,
          .list isBlanks_nil (List.forall_mem_nil _) (List.forall_mem_nil _)⟩
  have hspaced : ∀ v, Item.IsSpaced ⟨[], v, []⟩ := fun _ => ⟨isBlanks_nil, isBlanks_nil⟩
  exact ⟨⟨[], _, []⟩, ⟨[], _, []⟩, hspaced _, hspaced _, by decide, by decide, hschema⟩

theorem toOption_parse (text path : String) :
    (Schema.parse text path).toOption = (decode (record schemaShape) text).toOption := by
  rw [Schema.parse]
  cases decode (record schemaShape) text <;> rfl

theorem eq_ok_iff {ε α : Type} {e : Except ε α} {a : α} : e = .ok a ↔ e.toOption = some a := by
  cases e <;> simp [Except.toOption]

/-- From texts that are alike the same is read, or from neither anything. -/
theorem toOption_parse_eq {text text' : String} (h : AlikeTexts text text') (path : String) :
    (Schema.parse text path).toOption = (Schema.parse text' path).toOption := by
  obtain ⟨x, x', hx, hx', htext, htext', halike⟩ := h
  obtain ⟨-, -, hread⟩ := preserves_schema _ _ halike
  obtain ⟨r, hr, hr'⟩ := hread nestingLimit
  rw [toOption_parse, toOption_parse, toOption_decode hx htext hr, toOption_decode hx' htext' hr']

/-- The members of the objects in a schema may stand in any order, among members of any names and
values that the schema has no use for. -/
theorem parse_eq_of_alikeTexts {text text' : String} (h : AlikeTexts text text') (path : String)
    {S : Schema} (hparse : Schema.parse text path = .ok S) : Schema.parse text' path = .ok S := by
  rw [eq_ok_iff] at hparse ⊢
  rw [← toOption_parse_eq h path, hparse]

theorem parse_eq_of_alikeTexts_reordered :
    AlikeTexts directText reorderedText ∧ ∃ S, Schema.parse directText "s.json" = .ok S ∧
      Schema.parse reorderedText "s.json" = .ok S := by
  have hsome : (Schema.parse directText "s.json").toOption.isSome = true := by decide +kernel
  obtain ⟨S, hS⟩ := Option.isSome_iff_exists.1 hsome
  rw [← eq_ok_iff] at hS
  exact ⟨alikeTexts_reordered, S, hS, parse_eq_of_alikeTexts alikeTexts_reordered "s.json" hS⟩

/-- A member whose key denotes no characters, since an escape in it is a lone surrogate, is none
that a schema has a use for; but its key is read before it is passed over. -/
theorem not_parse_surrogate :
    ∃ m : Member, m.IsSpaced ∧ IsBody m.key ∧ IsValue m.item.value ∧
      (∀ name ∈ schemaShape.fields.map Decoder.Field.name, ¬Spells m.key name.toList) ∧
      "\x7b\x7d".toList = objectText [] [] ∧
      "\x7b\"\\ud800\": 1\x7d".toList = objectText [m] [] ∧
      (∃ S, Schema.parse "\x7b\x7d" "schema.json" = .ok S) ∧
      ∀ S, Schema.parse "\x7b\"\\ud800\": 1\x7d" "schema.json" ≠ .ok S := by
  let key := ['\\', 'u', 'd', '8', '0', '0']
  have hkey : given stringBody (key ++ ['"']) = none := by decide +kernel
  refine ⟨⟨[], key, [], ⟨[' '], ['1'], []⟩⟩, ?_, ?_, ?_, ?_, by decide, by decide, ?_, ?_⟩
  · exact ⟨isBlanks_nil, isBlanks_nil, ⟨by simp [IsBlanks, isJsonBlank], isBlanks_nil⟩⟩
  · exact @IsBody.numeric 0xD800 ['d', '8', '0', '0'] [] ⟨'d', '8', '0', '0', 13, 8, 0, 0, rfl, rfl,
      rfl, rfl, rfl, rfl⟩ .nil
  · exact @IsValue.number [] ['1'] [] [] (by decide)
      ⟨⟨List.cons_ne_nil _ _, by simp⟩, by simp⟩ (.inl rfl)
      (.inl rfl)
  · intro name _ hspells
    have hgives : Gives stringBody (key ++ ['"']) (some _) [] := hspells.takes_stringBody []
    rw [hgives.given_eq] at hkey
    cases hkey
  · have hsome : (Schema.parse "\x7b\x7d" "schema.json").toOption.isSome = true := by decide +kernel
    obtain ⟨S, hS⟩ := Option.isSome_iff_exists.1 hsome
    exact ⟨S, eq_ok_iff.2 hS⟩
  · intro S hS
    have hnone : (Schema.parse "\x7b\"\\ud800\": 1\x7d" "schema.json").toOption.isSome =
        false := by decide +kernel
    rw [hS] at hnone
    cases hnone

end CqlGlue
