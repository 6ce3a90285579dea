import CqlGlue.Proofs.Json.Decoders
import CqlGlue.Proofs.Json.Skipping
import Mathlib.Data.List.Basic
import Mathlib.Data.List.Pairwise

/-!
# Reading records

Each field of a record has a place of its own in the draft, so what one member does to a draft and
what another does go together in either order. A member that no field is named by does nothing.

## Main definitions
* `Slot` is a field with its place in the draft, `Slot.act` what reading it does to a draft.
* `effect` is what a member does to a draft.

## Main statements
* `act_bind_comm`: members may change places.
* `reads_record_members`, `reads_record_listed`: what a record gives in its two forms.
-/

namespace CqlGlue.Json

open Decoder

variable {α δ : Type} {v b rest text : List Char} {depth : Nat}

/-! ## Places in a draft -/

/-- A field that has a place of its own in a draft. -/
structure Slot (δ : Type) where
  name : String
  Content : Type
  isSet : δ → Bool
  put : Content → δ → δ
  decode : Nat → Decoder Content
  isSet_put : ∀ a d, isSet (put a d) = true

namespace Slot

/-- The field of a record. -/
def field (s : Slot δ) : Decoder.Field δ where
  name := s.name
  isSet := s.isSet
  read depth d := return s.put (← s.decode depth) d

/-- What reading a field does to a draft, by what its value gives. A field is not read again. -/
def act (s : Slot δ) (r : Option s.Content) (d : δ) : Option δ :=
  if s.isSet d then none else r.map fun a => s.put a d

/-- Two fields have different places. -/
structure Apart (s t : Slot δ) : Prop where
  isSet_put : ∀ a d, t.isSet (s.put a d) = t.isSet d
  put_isSet : ∀ a d, s.isSet (t.put a d) = s.isSet d
  put_comm : ∀ a b d, t.put b (s.put a d) = s.put a (t.put b d)

variable {s t : Slot δ}

instance : Std.Symm (@Apart δ) :=
  ⟨fun _ _ h => ⟨h.put_isSet, h.isSet_put, fun a b d => (h.put_comm b a d).symm⟩⟩

/-- Fields with different places are read in any order. -/
theorem Apart.act_bind_comm (h : s.Apart t) (r : Option s.Content) (q : Option t.Content) (d : δ) :
    (s.act r d).bind (t.act q) = (t.act q d).bind (s.act r) := by
  cases hs : s.isSet d <;> cases ht : t.isSet d <;> cases r <;> cases q <;>
    simp [act, hs, ht, h.isSet_put, h.put_isSet, h.put_comm]

/-- A field is read once, whichever value comes first. -/
theorem act_bind_act (r q : Option s.Content) (d : δ) : (s.act r d).bind (s.act q) = none := by
  cases hs : s.isSet d <;> cases r <;> simp [act, hs, s.isSet_put]

theorem reads_field {r : Option s.Content} (h : Reads (s.decode depth) v r) (d : δ) :
    Reads (s.field.read depth d) v (r.map fun a => s.put a d) :=
  fun b rest hb hrest => (h b rest hb hrest).map

end Slot

/-- A change of a draft that reading a member makes: that of a field, or none. -/
def IsChange (slots : List (Slot δ)) (f : δ → Option δ) : Prop :=
  (∃ s ∈ slots, ∃ r, f = s.act r) ∨ f = some

/-- Changes may change places. -/
theorem IsChange.bind_comm {slots : List (Slot δ)} (hapart : slots.Pairwise Slot.Apart)
    {f g : δ → Option δ} (hf : IsChange slots f) (hg : IsChange slots g) (d : δ) :
    (f d).bind g = (g d).bind f := by
  rcases hf with ⟨s, hs, r, rfl⟩ | rfl
  · rcases hg with ⟨t, ht, q, rfl⟩ | rfl
    · by_cases hst : s = t
      · subst hst
        rw [Slot.act_bind_act, Slot.act_bind_act]
      · exact (hapart.forall hs ht hst).act_bind_comm r q d
    · simp
  · simp

/-- Steps that may change places give the same in any order. -/
theorem foldlM_eq_of_perm {ι σ : Type} {f : σ → ι → Option σ} {xs ys : List ι}
    (hcomm : ∀ x ∈ xs, ∀ y ∈ xs, ∀ s, (f s x).bind (f · y) = (f s y).bind (f · x))
    (h : xs.Perm ys) (s : σ) : xs.foldlM f s = ys.foldlM f s := by
  rw [List.foldlM_eq_foldl, List.foldlM_eq_foldl]
  refine h.foldl_eq' (fun x hx y hy o => ?_) _
  cases o with
  | none => rfl
  | some s => exact hcomm x hx y hy s

/-! ## Members -/

/-- A member from behind its opening quote on, put into a draft. -/
def entry (s : Shape δ α) (depth : Nat) (d : δ) : Decoder δ := do
  let key ← stringBody
  match s.fields.find? (·.name == key) with
  | some field =>
    if field.isSet d then failShape (.duplicateField key)
    else
      colon
      field.read depth d
  | none =>
    colon
    skipValue
    return d

theorem members_eq (s : Shape δ α) (depth fuel : Nat) (first : Bool) (d : δ) :
    members s depth (fuel + 1) first d = do
      if ← nextMember? first then
        drop
        members s depth fuel false (← entry s depth d)
      else return d := by
  rw [members]
  congr
  funext next
  cases next with
  | false => rfl
  | true =>
    simp only [if_true, entry, bind_assoc]
    congr
    funext _
    congr
    funext key
    cases s.fields.find? (·.name == key) with
    | none => simp only [bind_assoc, pure_bind]
    | some field =>
      by_cases hset : field.isSet d
      · simp only [if_pos hset]
        rfl
      · simp only [if_neg hset, bind_assoc]

namespace Member

/-- What stands behind the opening quote of a member, up to its value. -/
def inside (m : Member) (rest : List Char) : List Char :=
  m.key ++ ('"' :: (m.after ++ (':' :: (m.item.before ++ (m.item.value ++ rest)))))

end Member

/-- What a member does to a draft. -/
def effect (s : Shape δ α) (depth : Nat) (m : Member) (d : δ) : Option δ :=
  given (entry s depth d) (m.inside [])

/-- A member is read up to the end of its value and changes the draft. -/
def Enters (s : Shape δ α) (depth : Nat) (m : Member) (f : δ → Option δ) : Prop :=
  ∀ d rest, Ends rest → Gives (entry s depth d) (m.inside rest) (f d) rest

theorem Enters.effect_eq {s : Shape δ α} {m : Member} {f : δ → Option δ}
    (h : Enters s depth m f) : effect s depth m = f :=
  funext fun d => (h d [] nofun).given_eq

variable {s : Shape δ α} {slots : List (Slot δ)} {m : Member} {name : String}

/-- A member that no field is named by is passed over. -/
theorem enters_of_unknown (hkey : Spells m.key name.toList) (hspaced : m.IsSpaced)
    (hvalue : IsValue m.item.value) (hname : name ∉ s.fields.map Decoder.Field.name) :
    Enters s depth m some := by
  have hfind : s.fields.find? (·.name == name) = none := by
    rw [List.find?_eq_none]
    intro field hfield heq
    exact hname (List.mem_map.2 ⟨field, hfield, by simpa using heq⟩)
  intro d rest hrest
  refine (hkey.takes_stringBody _).bind ?_
  rw [String.ofList_toList, hfind]
  refine (takes_colon hspaced.after _).bind ?_
  refine Takes.bind (hvalue.reads_skipValue _ rest hspaced.item.before hrest) ?_
  exact takes_pure d rest

/-- A member that is named by a field is read into the place of the field. -/
theorem enters_of_known (hfields : s.fields = slots.map Slot.field)
    (hkey : Spells m.key name.toList) (hspaced : m.IsSpaced) {slot : Slot δ}
    (hfind : slots.find? (·.name == name) = some slot) {r : Option slot.Content}
    (hvalue : Reads (slot.decode depth) m.item.value r) : Enters s depth m (slot.act r) := by
  have hfind' : s.fields.find? (·.name == name) = some slot.field := by
    rw [hfields, List.find?_map]
    exact congrArg (Option.map Slot.field) hfind
  intro d rest hrest
  refine (hkey.takes_stringBody _).bind ?_
  simp only [String.ofList_toList, hfind', Slot.act]
  by_cases hset : slot.isSet d
  · rw [if_pos hset, if_pos (show slot.field.isSet d = true from hset)]
    exact fails_failShape _ _
  · rw [if_neg hset, if_neg (show ¬slot.field.isSet d = true from hset)]
    refine (takes_colon hspaced.after _).bind ?_
    exact slot.reads_field hvalue d _ rest hspaced.item.before hrest

/-! ## Whole records -/

/-- What a draft is completed to. -/
def completion (s : Shape δ α) (missing : String → Cause) (d : δ) : Option α :=
  (s.complete missing d).toOption

theorem gives_completed (s : Shape δ α) (missing : String → Cause) (d : δ) (text : List Char) :
    Gives (completed s missing d) text (completion s missing d) text := by
  unfold completed completion
  cases s.complete missing d with
  | ok a => exact takes_pure a text
  | error cause => exact fails_failShape cause text

/-- A record written as an object gives what its members make of the first draft. -/
theorem reads_record_members {ms : List Member} {blanks : List Char} (hblanks : IsBlanks blanks)
    (hspaced : ∀ m ∈ ms, m.IsSpaced) (hentry : ∀ m ∈ ms, ∃ f, Enters s (depth + 1) m f) :
    Reads (record s (depth + 2)) (objectText ms blanks)
      ((ms.foldlM (fun d m => effect s (depth + 1) m d) s.start).bind
        (completion s .missingField)) := by
  intro b rest hb _
  have hlength := length_le (ms.map Member.text) blanks
  simp only [List.length_map] at hlength
  have hmembers : Gives (fueled fun fuel => members s (depth + 1) fuel true s.start)
      (innerText (ms.map Member.text) blanks ++ '\x7d' :: rest)
      (ms.foldlM (fun d m => effect s (depth + 1) m d) s.start) ('\x7d' :: rest) := by
    refine Gives.fueled ?_
    have hfuel : 0 + ms.length <
        2 * (innerText (ms.map Member.text) blanks ++ '\x7d' :: rest).length + 8 := by
      rw [List.length_append]
      omega
    rw [innerText_eq] at hfuel ⊢
    refine gives_members (fun fuel first d => members s (depth + 1) fuel first d)
      (members_eq s (depth + 1)) hspaced (fun m hm _ d rest _ hrest => ?_) hblanks hfuel s.start
      rest
    obtain ⟨f, hf⟩ := hentry m hm
    rw [hf.effect_eq]
    exact hf d rest hrest
  simp only [objectText, List.cons_append, List.append_assoc, List.nil_append]
  refine (takes_peekToken? hb (by decide) _).bind (Gives.placed (gives_nested depth ?_))
  refine (takes_drop _ _).bind (Gives.bracketed ?_ (takes_endObject rest))
  exact hmembers.bind fun d _ => gives_completed s _ d _

/-- The fields of a record written as a list are read one by one, as far as there are items. -/
theorem gives_listed {fields : List (Decoder.Field δ)} {xs : List Item}
    {act : Decoder.Field δ × Item → δ → Option δ} (hlength : xs.length ≤ fields.length)
    (hspaced : ∀ x ∈ xs, x.IsSpaced)
    (hvalue : ∀ x ∈ xs, IsValue x.value)
    (hread : ∀ p ∈ fields.zip xs, ∀ d, Reads (p.1.read depth d) p.2.value (act p d))
    (first : Bool) (hb : IsBlanks b) (rest : List Char) :
    ∃ b', IsBlanks b' ∧ ∀ d, Gives (listed depth fields first d)
      (leadText first b (xs.map Item.text) ++ ']' :: rest)
      ((fields.zip xs).foldlM (fun d p => act p d) d) (b' ++ ']' :: rest) := by
  induction fields generalizing xs first b with
  | nil =>
    cases List.eq_nil_of_length_eq_zero (Nat.le_zero.1 hlength)
    refine ⟨b, hb, fun d => ?_⟩
    rw [List.map_nil, leadText_nil]
    exact takes_pure d _
  | cons field fields ih =>
    cases xs with
    | nil =>
      refine ⟨[], isBlanks_nil, fun d => ?_⟩
      rw [List.map_nil, leadText_nil]
      exact (takes_nextElement?_end hb first rest).bind (takes_pure d _)
    | cons x xs =>
      simp only [List.forall_mem_cons, List.zip_cons_cons] at hspaced hvalue hread
      obtain ⟨b', hb', hrest⟩ := ih (Nat.le_of_succ_le_succ hlength) hspaced.2 hvalue.2 hread.2
        false hspaced.1.after
      refine ⟨b', hb', fun d => ?_⟩
      have hends : Ends (x.after ++ (tailText (xs.map Item.text) ++ ']' :: rest)) :=
        .of_blanks hspaced.1.after (ends_tailText _ (by decide) rest)
      rw [List.map_cons, List.zip_cons_cons, List.foldlM_cons]
      refine (takes_nextElement? hb hspaced.1 hvalue.1 first _ _).bind ?_
      refine (hread.1 d [] _ isBlanks_nil hends).bind fun d _ => ?_
      have hd := hrest d
      simp only [leadText, List.append_assoc] at hd
      exact hd

/-- A record written as a list gives what its items make of the first draft. -/
theorem reads_record_listed {xs : List Item} {blanks : List Char}
    {act : Decoder.Field δ × Item → δ → Option δ} (hblanks : IsBlanks blanks)
    (hlength : xs.length ≤ s.fields.length) (hspaced : ∀ x ∈ xs, x.IsSpaced)
    (hvalue : ∀ x ∈ xs, IsValue x.value)
    (hread : ∀ p ∈ s.fields.zip xs, ∀ d, Reads (p.1.read (depth + 1) d) p.2.value (act p d)) :
    Reads (record s (depth + 2)) (listText xs blanks)
      (((s.fields.zip xs).foldlM (fun d p => act p d) s.start).bind
        (completion s s.wrongLength)) := by
  intro b rest hb _
  obtain ⟨b', hb', hlisted⟩ := gives_listed hlength hspaced hvalue hread true hblanks rest
  simp only [listText, List.cons_append, List.append_assoc, List.nil_append]
  refine (takes_peekToken? hb (by decide) _).bind (Gives.placed (gives_nested depth ?_))
  refine (takes_drop _ _).bind (Gives.bracketed ?_ (takes_endList hb' rest))
  rw [innerText_eq]
  exact (hlisted s.start).bind fun d _ => gives_completed s _ d _

/-- Records are read above the limit of nesting only. -/
theorem reads_record_of_lt (s : Shape δ α) (hdepth : depth < 2) {c : Char}
    (hc : c ∈ ['[', '\x7b']) (cs : List Char) : Reads (record s depth) (c :: cs) none := by
  intro b rest hb _
  simp only [List.mem_cons, List.not_mem_nil, or_false] at hc
  rcases hc with rfl | rfl
  · exact (takes_peekToken? hb (by decide) _).bind_fails (fails_nested _ hdepth _).placed
  · exact (takes_peekToken? hb (by decide) _).bind_fails (fails_nested _ hdepth _).placed

/-- A value without brackets is no record. -/
theorem reads_record_of_ne (s : Shape δ α) (hv : IsValue v) (hlist : v.head? ≠ some '[')
    (hobject : v.head? ≠ some '\x7b') (depth : Nat) : Reads (record s depth) v none := by
  obtain ⟨c, cs, rfl, hc⟩ := hv.exists_cons
  intro b rest hb _
  refine (takes_peekToken? hb hc.not_mem.1 _).bind_fails ?_
  split
  · next heq => cases heq
  · next heq =>
    cases heq
    exact absurd rfl hlist
  · next heq =>
    cases heq
    exact absurd rfl hobject
  · exact fails_wrongKind _ _

/-! ## Whole texts -/

/-- A value and the end of the text. -/
def whole (d : Nat → Decoder α) : Decoder α := do
  let a ← d nestingLimit
  match ← peekToken? with
  | none => return a
  | some _ => failAhead .trailingCharacters

theorem decode_eq (d : Nat → Decoder α) (text : String) :
    decode d text = match whole d ⟨text.toList, ⟨1, 0⟩⟩ with
      | .ok a _ => .ok a
      | .error f _ => .error f := rfl

theorem toOption_decode_eq (d : Nat → Decoder α) (text : String) :
    (decode d text).toOption = given (whole d) text.toList := by
  rw [decode_eq, given]
  cases whole d ⟨text.toList, ⟨1, 0⟩⟩ with
  | ok a rest => rfl
  | error f rest => rfl

/-- A whole text gives what its value gives. -/
theorem toOption_decode {d : Nat → Decoder α} {text : String} {x : Item} {r : Option α}
    (hx : x.IsSpaced) (htext : text.toList = x.text) (hr : Reads (d nestingLimit) x.value r) :
    (decode d text).toOption = r := by
  have hends : Ends x.after := by
    rw [← List.append_nil x.after]
    exact .of_blanks hx.after nofun
  have hwhole : Gives (whole d) x.text (r.bind some) [] :=
    (hr _ _ hx.before hends).bind fun a _ =>
      (takes_peekToken?_nil hx.after).bind (takes_pure a [])
  rw [toOption_decode_eq, htext, hwhole.given_eq, Option.bind_fun_some]

end CqlGlue.Json
