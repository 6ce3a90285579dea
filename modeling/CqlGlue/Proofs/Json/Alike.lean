import CqlGlue.Proofs.Json.Records

/-!
# Values that are alike

Two objects that stand for a record are alike when the members that the record knows are the same
up to their order, and their values alike in turn; members it does not know may be there or not.
From values that are alike a decoder reads the same, or from neither of them anything.

## Main definitions
* `Same`, `AlikeList` and `AlikeRecord` are ways to be alike.
* `Preserves` says that a decoder does not tell values apart that are alike.

## Main statements
* `preserves_list`, `preserves_nullable_list`, `preserves_record`: what is known of the parts is
  known of the whole.
-/

namespace CqlGlue.Json

open Decoder

variable {α δ : Type} {v v' : List Char} {depth : Nat} {R : List Char → List Char → Prop}

/-! ## Ways to be alike -/

/-- The same value. -/
def Same (v v' : List Char) : Prop := IsValue v ∧ v' = v

/-- A list of the given items. -/
inductive IsListOf (xs : List Item) : List Char → Prop
  | intro {blanks : List Char} (hblanks : IsBlanks blanks) (hspaced : ∀ x ∈ xs, x.IsSpaced) :
    IsListOf xs (listText xs blanks)

/-- An object of the given members, in any order, and of members of other names than the given
ones, with values of any kind. -/
inductive IsObjectOf (names : List String) (known : List Member) : List Char → Prop
  | intro {ms extra : List Member} {blanks : List Char} (hblanks : IsBlanks blanks)
    (hspaced : ∀ m ∈ ms, m.IsSpaced) (hms : ms.Perm (known ++ extra))
    (hextra : ∀ m ∈ extra, ∃ name ∉ names, Spells m.key name.toList ∧ IsValue m.item.value) :
    IsObjectOf names known (objectText ms blanks)

/-- Lists whose items are alike one by one. What is no list is alike to itself. -/
inductive AlikeList (R : List Char → List Char → Prop) : List Char → List Char → Prop
  | other {v : List Char} (hv : IsValue v) (hlist : v.head? ≠ some '[') : AlikeList R v v
  | items {v v' : List Char} {pairs : List (Item × Item)} (hv : IsListOf (pairs.map Prod.fst) v)
    (hv' : IsListOf (pairs.map Prod.snd) v') (hpairs : ∀ p ∈ pairs, R p.1.value p.2.value) :
    AlikeList R v v'

/-- Records whose fields are alike by name. Written as lists they have the fields in the order of
the names, and as objects in any order, among others. What is neither is alike to itself. -/
inductive AlikeRecord (names : List String) (R : String → List Char → List Char → Prop) :
    List Char → List Char → Prop
  | other {v : List Char} (hv : IsValue v) (hlist : v.head? ≠ some '[')
    (hobject : v.head? ≠ some '\x7b') : AlikeRecord names R v v
  | items {v v' : List Char} {pairs : List (Item × Item)} (hv : IsListOf (pairs.map Prod.fst) v)
    (hv' : IsListOf (pairs.map Prod.snd) v') (hlength : pairs.length ≤ names.length)
    (hpairs : ∀ p ∈ names.zip pairs, R p.1 p.2.1.value p.2.2.value) : AlikeRecord names R v v'
  | members {v v' : List Char} {pairs : List (Member × Member)}
    (hv : IsObjectOf names (pairs.map Prod.fst) v)
    (hv' : IsObjectOf names (pairs.map Prod.snd) v')
    (hpairs : ∀ p ∈ pairs, ∃ name ∈ names, Spells p.1.key name.toList ∧
      Spells p.2.key name.toList ∧ R name p.1.item.value p.2.item.value) : AlikeRecord names R v v'

/-- A decoder reads the same from values that are alike, or nothing from either. -/
def Preserves (R : List Char → List Char → Prop) (d : Nat → Decoder α) : Prop :=
  ∀ v v', R v v' →
    IsValue v ∧ IsValue v' ∧ ∀ depth, ∃ r, Reads (d depth) v r ∧ Reads (d depth) v' r

/-- What depends on the text of a value only is the same for the same value. -/
theorem preserves_same {d : Nat → Decoder α}
    (h : ∀ {v}, IsValue v → ∀ depth, ∃ r, Reads (d depth) v r) : Preserves Same d := by
  rintro v _ ⟨hv, rfl⟩
  refine ⟨hv, hv, fun depth => ?_⟩
  obtain ⟨r, hr⟩ := h hv depth
  exact ⟨r, hr, hr⟩

/-! ## Lists -/

theorem IsListOf.isValue {xs : List Item} (h : IsListOf xs v) (hxs : ∀ x ∈ xs, IsValue x.value) :
    IsValue v := by
  obtain ⟨hblanks, hspaced⟩ := h
  exact .list hblanks hspaced hxs

theorem IsListOf.exists_cons {xs : List Item} (h : IsListOf xs v) : ∃ cs, v = '[' :: cs := by
  obtain ⟨-, -⟩ := h
  exact ⟨_, rfl⟩

/-- A list gives what is given for its items. They may be parts of other things, of which it is
told what they give. -/
theorem IsListOf.reads_list {ι : Type} {part : ι → Item} {item : Nat → Decoder α} {xs : List ι}
    {act : ι → Option α} (h : IsListOf (xs.map part) v)
    (hitem : ∀ x ∈ xs, IsValue (part x).value ∧
      Reads (item (depth + 1)) (part x).value (act x)) :
    Reads (list item (depth + 2)) v (xs.mapM act) := by
  obtain ⟨hblanks, hspaced⟩ := h
  let read (x : Item) : Option α := given (item (depth + 1)) x.value
  have hgiven : ∀ x ∈ xs, read (part x) = act x := fun x hx => (hitem x hx).2.given_eq
  have hread := Json.reads_list hblanks hspaced
    (List.forall_mem_map.2 fun x hx => (hitem x hx).1)
    (List.forall_mem_map.2 fun x hx => (hgiven x hx).symm ▸ (hitem x hx).2)
  have hid : ∀ f : ι → Option α, xs.mapM f = (xs.map f).mapM id := by
    intro f
    rw [List.mapM_map]
    rfl
  have hmap : xs.map (read ∘ part) = xs.map act := List.map_congr_left hgiven
  have hacts : (xs.map part).mapM read = xs.mapM act := by
    rw [List.mapM_map, hid, hmap, ← hid]
  exact hacts ▸ hread

theorem preserves_list {item : Nat → Decoder α} (h : Preserves R item) :
    Preserves (AlikeList R) (list item) := by
  intro v v' hv
  cases hv with
  | other hv hlist =>
    have hread := reads_list_of_ne item hv hlist
    exact ⟨hv, hv, fun depth => ⟨none, hread depth, hread depth⟩⟩
  | @items _ pairs hv hv' hpairs =>
    have hvalue := fun p hp => (h _ _ (hpairs p hp)).1
    have hvalue' := fun p hp => (h _ _ (hpairs p hp)).2.1
    refine ⟨hv.isValue (List.forall_mem_map.2 hvalue), hv'.isValue (List.forall_mem_map.2 hvalue'),
      fun depth => ?_⟩
    match depth with
    | 0 | 1 =>
      obtain ⟨cs, rfl⟩ := hv.exists_cons
      obtain ⟨cs', rfl⟩ := hv'.exists_cons
      exact ⟨none, reads_list_of_lt item (by decide) cs, reads_list_of_lt item (by decide) cs'⟩
    | depth + 2 =>
      have hact := fun p hp => (h _ _ (hpairs p hp)).2.2 (depth + 1)
      choose! act hact hact' using hact
      exact ⟨_, hv.reads_list fun p hp => ⟨hvalue p hp, hact p hp⟩,
        hv'.reads_list fun p hp => ⟨hvalue' p hp, hact' p hp⟩⟩

theorem preserves_nullable_list {item : Nat → Decoder α} (h : Preserves R item) :
    Preserves (AlikeList R) fun depth => nullable (list item depth) := by
  intro v v' hv
  obtain ⟨hvalue, hvalue', hlist⟩ := preserves_list h v v' hv
  refine ⟨hvalue, hvalue', fun depth => ?_⟩
  obtain ⟨r, hr, hr'⟩ := hlist depth
  cases hv with
  | other hv =>
    obtain ⟨c, cs, rfl, hc⟩ := hv.exists_cons
    by_cases hn : c = 'n'
    · subst hn
      cases hv.eq_null
      exact ⟨_, reads_nullable_null _, reads_nullable_null _⟩
    · have hhead : (c :: cs).head? ≠ some 'n' := by simpa using hn
      exact ⟨_, hr.nullable hv hhead, hr.nullable hv hhead⟩
  | items hv hv' =>
    obtain ⟨cs, rfl⟩ := hv.exists_cons
    obtain ⟨cs', rfl⟩ := hv'.exists_cons
    exact ⟨_, hr.nullable hvalue (by simp), hr'.nullable hvalue' (by simp)⟩

/-! ## Changes of a draft -/

/-- The changes that members or items make, one after the other. -/
def changes (fs : List (δ → Option δ)) (d : δ) : Option δ := fs.foldlM (fun d f => f d) d

theorem changes_of_forall {fs : List (δ → Option δ)} (h : ∀ f ∈ fs, f = some) (d : δ) :
    changes fs d = some d := by
  induction fs with
  | nil => rfl
  | cons f fs ih =>
    obtain ⟨rfl, hfs⟩ := List.forall_mem_cons.1 h
    exact ih hfs

/-- Changes go together in any order, and some of them change nothing. -/
theorem changes_eq_of_perm {slots : List (Slot δ)} (hapart : slots.Pairwise Slot.Apart)
    {fs known extra : List (δ → Option δ)} (hperm : fs.Perm (known ++ extra))
    (hknown : ∀ f ∈ known, IsChange slots f) (hextra : ∀ f ∈ extra, f = some) (d : δ) :
    changes fs d = changes known d := by
  have hchange : ∀ f ∈ fs, IsChange slots f := by
    intro f hf
    rcases List.mem_append.1 (hperm.mem_iff.1 hf) with hf | hf
    · exact hknown f hf
    · exact .inr (hextra f hf)
  calc changes fs d = changes (known ++ extra) d :=
        foldlM_eq_of_perm (fun f hf g hg d => (hchange f hf).bind_comm hapart (hchange g hg) d)
          hperm d
    _ = (changes known d).bind (changes extra) := List.foldlM_append
    _ = changes known d := by rw [funext (changes_of_forall hextra), Option.bind_fun_some]

variable {s : Shape δ α} {slots : List (Slot δ)} {alike : String → List Char → List Char → Prop}

/-! ## Records written as objects -/

section Objects

variable {names : List String} {known : List Member}

theorem IsObjectOf.isValue (h : IsObjectOf names known v)
    (hknown : ∀ m ∈ known, IsBody m.key ∧ IsValue m.item.value) : IsValue v := by
  obtain @⟨ms, extra, blanks, hblanks, hspaced, hms, hextra⟩ := h
  have hvalue : ∀ m, m ∈ known ∨ m ∈ extra → IsBody m.key ∧ IsValue m.item.value := by
    rintro m (hm | hm)
    · exact hknown m hm
    · obtain ⟨name, -, hkey, hvalue⟩ := hextra m hm
      exact ⟨hkey.isBody, hvalue⟩
  have hmem : ∀ m ∈ ms, m ∈ known ∨ m ∈ extra := fun m hm =>
    List.mem_append.1 (hms.mem_iff.1 hm)
  exact .object hblanks hspaced (fun m hm => (hvalue m (hmem m hm)).1)
    fun m hm => (hvalue m (hmem m hm)).2

theorem IsObjectOf.exists_cons (h : IsObjectOf names known v) : ∃ cs, v = '\x7b' :: cs := by
  obtain ⟨-, -, -, -⟩ := h
  exact ⟨_, rfl⟩

theorem IsObjectOf.isSpaced (h : IsObjectOf names known v) : ∀ m ∈ known, m.IsSpaced := by
  obtain ⟨-, hspaced, hms, -⟩ := h
  exact fun m hm => hspaced m (hms.mem_iff.2 (List.mem_append_left _ hm))

/-- What an object changes is what its known members change. -/
theorem IsObjectOf.reads_record (h : IsObjectOf (s.fields.map Decoder.Field.name) known v)
    (hapart : slots.Pairwise Slot.Apart)
    (hknown : ∀ m ∈ known, ∃ f, IsChange slots f ∧ Enters s (depth + 1) m f) :
    Reads (record s (depth + 2)) v
      ((changes (known.map (effect s (depth + 1))) s.start).bind (completion s .missingField)) := by
  obtain @⟨ms, extra, blanks, hblanks, hspaced, hms, hextra⟩ := h
  have hunknown : ∀ m ∈ extra, Enters s (depth + 1) m some := by
    intro m hm
    obtain ⟨name, hname, hkey, hvalue⟩ := hextra m hm
    exact enters_of_unknown hkey (hspaced m (hms.mem_iff.2 (List.mem_append_right _ hm))) hvalue
      hname
  have hentry : ∀ m ∈ ms, ∃ f, Enters s (depth + 1) m f := by
    intro m hm
    rcases List.mem_append.1 (hms.mem_iff.1 hm) with hm | hm
    · obtain ⟨f, -, hf⟩ := hknown m hm
      exact ⟨f, hf⟩
    · exact ⟨some, hunknown m hm⟩
  have hperm := hms.map (effect s (depth + 1))
  rw [List.map_append] at hperm
  have hchanges : changes (ms.map (effect s (depth + 1))) s.start =
      changes (known.map (effect s (depth + 1))) s.start := by
    refine changes_eq_of_perm hapart hperm (List.forall_mem_map.2 fun m hm => ?_)
      (List.forall_mem_map.2 fun m hm => (hunknown m hm).effect_eq) s.start
    obtain ⟨f, hchange, hf⟩ := hknown m hm
    rw [hf.effect_eq]
    exact hchange
  have hread := reads_record_members hblanks hspaced hentry
  rw [← hchanges, changes, List.foldlM_map]
  exact hread

end Objects

/-- A name of a record is that of a slot. -/
theorem exists_slot (hfields : s.fields = slots.map Slot.field) {name : String}
    (hname : name ∈ s.fields.map Decoder.Field.name) :
    ∃ slot ∈ slots, slot.name = name ∧ slots.find? (·.name == name) = some slot := by
  rw [hfields, List.map_map, List.mem_map] at hname
  obtain ⟨slot, hslot, hslotName⟩ := hname
  have hsome : (slots.find? (·.name == name)).isSome := by
    rw [List.find?_isSome]
    exact ⟨slot, hslot, beq_iff_eq.2 hslotName⟩
  obtain ⟨found, hfound⟩ := Option.isSome_iff_exists.1 hsome
  have hfoundName := List.find?_some hfound
  exact ⟨found, List.mem_of_find?_eq_some hfound, beq_iff_eq.1 hfoundName, hfound⟩

/-- Members of one name and of values that are alike make the same change. -/
theorem exists_enters (hfields : s.fields = slots.map Slot.field)
    (hslots : ∀ slot ∈ slots, Preserves (alike slot.name) slot.decode) {m m' : Member}
    {name : String} (hname : name ∈ s.fields.map Decoder.Field.name)
    (hkey : Spells m.key name.toList) (hkey' : Spells m'.key name.toList) (hspaced : m.IsSpaced)
    (hspaced' : m'.IsSpaced) (halike : alike name m.item.value m'.item.value) :
    IsValue m.item.value ∧ IsValue m'.item.value ∧
      ∀ depth, ∃ f, IsChange slots f ∧ Enters s depth m f ∧ Enters s depth m' f := by
  obtain ⟨slot, hslot, rfl, hfind⟩ := exists_slot hfields hname
  obtain ⟨hvalue, hvalue', hread⟩ := hslots slot hslot _ _ halike
  refine ⟨hvalue, hvalue', fun depth => ?_⟩
  obtain ⟨r, hr, hr'⟩ := hread depth
  exact ⟨slot.act r, .inl ⟨slot, hslot, r, rfl⟩, enters_of_known hfields hkey hspaced hfind hr,
    enters_of_known hfields hkey' hspaced' hfind hr'⟩

/-- Records written as objects are read alike where their known members are alike. -/
theorem preserves_record_members (hfields : s.fields = slots.map Slot.field)
    (hapart : slots.Pairwise Slot.Apart)
    (hslots : ∀ slot ∈ slots, Preserves (alike slot.name) slot.decode)
    {pairs : List (Member × Member)}
    (hv : IsObjectOf (s.fields.map Decoder.Field.name) (pairs.map Prod.fst) v)
    (hv' : IsObjectOf (s.fields.map Decoder.Field.name) (pairs.map Prod.snd) v')
    (hpairs : ∀ p ∈ pairs, ∃ name ∈ s.fields.map Decoder.Field.name, Spells p.1.key name.toList ∧
      Spells p.2.key name.toList ∧ alike name p.1.item.value p.2.item.value) :
    IsValue v ∧ IsValue v' ∧
      ∀ depth, ∃ r, Reads (record s depth) v r ∧ Reads (record s depth) v' r := by
  have hspaced := List.forall_mem_map.1 hv.isSpaced
  have hspaced' := List.forall_mem_map.1 hv'.isSpaced
  have hpair : ∀ p ∈ pairs, (IsBody p.1.key ∧ IsValue p.1.item.value) ∧
      (IsBody p.2.key ∧ IsValue p.2.item.value) ∧
      ∀ depth, ∃ f, IsChange slots f ∧ Enters s depth p.1 f ∧ Enters s depth p.2 f := by
    intro p hp
    obtain ⟨name, hname, hkey, hkey', halike⟩ := hpairs p hp
    obtain ⟨hvalue, hvalue', henters⟩ := exists_enters hfields hslots hname hkey hkey'
      (hspaced p hp) (hspaced' p hp) halike
    exact ⟨⟨hkey.isBody, hvalue⟩, ⟨hkey'.isBody, hvalue'⟩, henters⟩
  refine ⟨hv.isValue (List.forall_mem_map.2 fun p hp => (hpair p hp).1),
    hv'.isValue (List.forall_mem_map.2 fun p hp => (hpair p hp).2.1), fun depth => ?_⟩
  match depth with
  | 0 | 1 =>
    obtain ⟨cs, rfl⟩ := hv.exists_cons
    obtain ⟨cs', rfl⟩ := hv'.exists_cons
    exact ⟨none, reads_record_of_lt s (by decide) (by decide) cs,
      reads_record_of_lt s (by decide) (by decide) cs'⟩
  | depth + 2 =>
    have henters := fun p hp => (hpair p hp).2.2 (depth + 1)
    have hread := hv.reads_record hapart (List.forall_mem_map.2 fun p hp =>
      (henters p hp).imp fun f hf => ⟨hf.1, hf.2.1⟩)
    have hread' := hv'.reads_record hapart (List.forall_mem_map.2 fun p hp =>
      (henters p hp).imp fun f hf => ⟨hf.1, hf.2.2⟩)
    have heq : (pairs.map Prod.fst).map (effect s (depth + 1)) =
        (pairs.map Prod.snd).map (effect s (depth + 1)) := by
      rw [List.map_map, List.map_map]
      refine List.map_congr_left fun p hp => ?_
      obtain ⟨f, -, hf, hf'⟩ := henters p hp
      exact hf.effect_eq.trans hf'.effect_eq.symm
    exact ⟨_, heq ▸ hread, hread'⟩

/-! ## Records written as lists -/

theorem forall_of_forall_zip {ι κ : Type} {xs : List ι} {ys : List κ} {P : κ → Prop}
    (hlength : ys.length ≤ xs.length) (h : ∀ p ∈ xs.zip ys, P p.2) : ∀ y ∈ ys, P y := by
  rw [← List.map_snd_zip hlength]
  exact List.forall_mem_map.2 h

/-- A record written as a list changes what is told of its items, which may be parts of other
things. -/
theorem IsListOf.reads_record {ι : Type} {part : ι → Item} {xs : List ι}
    (h : IsListOf (xs.map part) v) (hlength : xs.length ≤ s.fields.length)
    {act : Decoder.Field δ × ι → δ → Option δ}
    (hitem : ∀ q ∈ s.fields.zip xs, IsValue (part q.2).value ∧
      ∀ d, Reads (q.1.read (depth + 1) d) (part q.2).value (act q d)) :
    Reads (record s (depth + 2)) v
      ((changes ((s.fields.zip xs).map act) s.start).bind (completion s s.wrongLength)) := by
  obtain ⟨hblanks, hspaced⟩ := h
  let read (p : Decoder.Field δ × Item) (d : δ) : Option δ :=
    given (p.1.read (depth + 1) d) p.2.value
  have hgiven : ∀ q ∈ s.fields.zip xs, read (q.1, part q.2) = act q :=
    fun q hq => funext fun d => ((hitem q hq).2 d).given_eq
  have hzip : s.fields.zip (xs.map part) = (s.fields.zip xs).map fun q => (q.1, part q.2) :=
    List.zip_map_right
  have hitems : ∀ p ∈ s.fields.zip (xs.map part), IsValue p.2.value ∧
      ∀ d, Reads (p.1.read (depth + 1) d) p.2.value (read p d) := by
    rw [hzip]
    exact List.forall_mem_map.2 fun q hq => (hgiven q hq).symm ▸ hitem q hq
  have hlength' : (xs.map part).length ≤ s.fields.length := by rwa [List.length_map]
  have hread := reads_record_listed hblanks hlength' hspaced
    (forall_of_forall_zip hlength' fun p hp => (hitems p hp).1) fun p hp => (hitems p hp).2
  have hchanges : (s.fields.zip (xs.map part)).map read = (s.fields.zip xs).map act := by
    rw [hzip, List.map_map]
    exact List.map_congr_left hgiven
  rw [← hchanges, changes, List.foldlM_map]
  exact hread

/-- A field reads the items in its place alike. -/
theorem exists_reads_items (hfields : s.fields = slots.map Slot.field)
    (hslots : ∀ slot ∈ slots, Preserves (alike slot.name) slot.decode)
    {pairs : List (Item × Item)}
    (hpairs : ∀ p ∈ (s.fields.map Decoder.Field.name).zip pairs,
      alike p.1 p.2.1.value p.2.2.value) :
    ∀ q ∈ s.fields.zip pairs, IsValue q.2.1.value ∧ IsValue q.2.2.value ∧
      ∀ depth d, ∃ r, Reads (q.1.read depth d) q.2.1.value r ∧
        Reads (q.1.read depth d) q.2.2.value r := by
  rintro ⟨field, x, x'⟩ hq
  have hmem := (List.of_mem_zip hq).1
  rw [hfields, List.mem_map] at hmem
  obtain ⟨slot, hslot, rfl⟩ := hmem
  have hp : (slot.name, x, x') ∈ (s.fields.map Decoder.Field.name).zip pairs := by
    rw [List.zip_map_left]
    exact List.mem_map_of_mem hq
  obtain ⟨hx, hx', hread⟩ := hslots slot hslot _ _ (hpairs _ hp)
  refine ⟨hx, hx', fun depth d => ?_⟩
  obtain ⟨r, hr, hr'⟩ := hread depth
  exact ⟨_, slot.reads_field hr d, slot.reads_field hr' d⟩

/-- Records written as lists are read alike where their items are alike. -/
theorem preserves_record_items (hfields : s.fields = slots.map Slot.field)
    (hslots : ∀ slot ∈ slots, Preserves (alike slot.name) slot.decode)
    {pairs : List (Item × Item)} (hv : IsListOf (pairs.map Prod.fst) v)
    (hv' : IsListOf (pairs.map Prod.snd) v') (hlength : pairs.length ≤ s.fields.length)
    (hpairs : ∀ p ∈ (s.fields.map Decoder.Field.name).zip pairs,
      alike p.1 p.2.1.value p.2.2.value) :
    IsValue v ∧ IsValue v' ∧
      ∀ depth, ∃ r, Reads (record s depth) v r ∧ Reads (record s depth) v' r := by
  have hfield := exists_reads_items hfields hslots hpairs
  have hvalue : ∀ p ∈ pairs, IsValue p.1.value ∧ IsValue p.2.value :=
    forall_of_forall_zip hlength fun q hq => ⟨(hfield q hq).1, (hfield q hq).2.1⟩
  refine ⟨hv.isValue (List.forall_mem_map.2 fun p hp => (hvalue p hp).1),
    hv'.isValue (List.forall_mem_map.2 fun p hp => (hvalue p hp).2), fun depth => ?_⟩
  match depth with
  | 0 | 1 =>
    obtain ⟨cs, rfl⟩ := hv.exists_cons
    obtain ⟨cs', rfl⟩ := hv'.exists_cons
    exact ⟨none, reads_record_of_lt s (by decide) (by decide) cs,
      reads_record_of_lt s (by decide) (by decide) cs'⟩
  | depth + 2 =>
    have hact := fun q hq => (hfield q hq).2.2 (depth + 1)
    choose! act hact hact' using hact
    exact ⟨_, hv.reads_record hlength fun q hq => ⟨(hfield q hq).1, hact q hq⟩,
      hv'.reads_record hlength fun q hq => ⟨(hfield q hq).2.1, hact' q hq⟩⟩

/-- A record is read alike from values that are, where its fields are. -/
theorem preserves_record (slots : List (Slot δ)) (hfields : s.fields = slots.map Slot.field)
    (hapart : slots.Pairwise Slot.Apart)
    (hslots : ∀ slot ∈ slots, Preserves (alike slot.name) slot.decode) :
    Preserves (AlikeRecord (s.fields.map Decoder.Field.name) alike) (record s) := by
  intro v v' hv
  cases hv with
  | other hv hlist hobject =>
    have hread := reads_record_of_ne s hv hlist hobject
    exact ⟨hv, hv, fun depth => ⟨none, hread depth, hread depth⟩⟩
  | items hv hv' hlength hpairs =>
    rw [List.length_map] at hlength
    exact preserves_record_items hfields hslots hv hv' hlength hpairs
  | members hv hv' hpairs => exact preserves_record_members hfields hapart hslots hv hv' hpairs

/-! ## Plain objects -/

/-- An object with the given members, whose keys have no escapes. -/
def plainObject (ms : List (String × List Char)) : List Char :=
  objectText (ms.map fun m => ⟨[], m.1.toList, [], ⟨[' '], m.2, []⟩⟩) []

/-- Objects with plain keys are alike when the members with known names are. -/
theorem alikeRecord_plainObject {names : List String} {R : String → List Char → List Char → Prop}
    (pairs : List (String × List Char × List Char)) (extra extra' : List (String × List Char))
    {ms ms' : List (String × List Char)}
    (hms : ms.Perm (pairs.map (fun p => (p.1, p.2.1)) ++ extra))
    (hms' : ms'.Perm (pairs.map (fun p => (p.1, p.2.2)) ++ extra'))
    (hpairs : ∀ p ∈ pairs, p.1 ∈ names ∧ ArePlain p.1.toList ∧ R p.1 p.2.1 p.2.2)
    (hextra : ∀ m ∈ extra ++ extra', m.1 ∉ names ∧ ArePlain m.1.toList ∧ IsValue m.2) :
    AlikeRecord names R (plainObject ms) (plainObject ms') := by
  let member (m : String × List Char) : Member := ⟨[], m.1.toList, [], ⟨[' '], m.2, []⟩⟩
  have hobject : ∀ {ms extra : List (String × List Char)} {f : String × List Char × List Char →
      String × List Char}, ms.Perm (pairs.map f ++ extra) →
      (∀ m ∈ extra, m.1 ∉ names ∧ ArePlain m.1.toList ∧ IsValue m.2) →
      IsObjectOf names (pairs.map (member ∘ f)) (plainObject ms) := by
    intro ms extra f hms hextra
    have hperm := hms.map member
    rw [List.map_append, List.map_map] at hperm
    refine .intro isBlanks_nil (List.forall_mem_map.2 fun m _ => ?_) hperm
      (List.forall_mem_map.2 fun m hm => ?_)
    · exact ⟨isBlanks_nil, isBlanks_nil,
        ⟨by simp [IsBlanks, isJsonBlank], isBlanks_nil⟩⟩
    · obtain ⟨hname, hplain, hvalue⟩ := hextra m hm
      exact ⟨m.1, hname, .of_arePlain hplain, hvalue⟩
  rw [List.forall_mem_append] at hextra
  refine @AlikeRecord.members _ _ _ _
    (pairs.map fun p => (member (p.1, p.2.1), member (p.1, p.2.2))) ?_ ?_ ?_
  · rw [List.map_map]
    exact hobject hms hextra.1
  · rw [List.map_map]
    exact hobject hms' hextra.2
  · refine List.forall_mem_map.2 fun p hp => ?_
    obtain ⟨hname, hplain, halike⟩ := hpairs p hp
    exact ⟨p.1, hname, .of_arePlain hplain, .of_arePlain hplain, halike⟩

theorem alikeList_singleton {R : List Char → List Char → Prop} {v v' : List Char} (h : R v v') :
    AlikeList R (listText [⟨[], v, []⟩] []) (listText [⟨[], v', []⟩] []) := by
  have hlist : ∀ v, IsListOf [⟨[], v, []⟩] (listText [⟨[], v, []⟩] []) := fun v =>
    .intro isBlanks_nil (List.forall_mem_singleton.2 ⟨isBlanks_nil, isBlanks_nil⟩)
  exact @AlikeList.items _ _ _ [(⟨[], v, []⟩, ⟨[], v', []⟩)] (hlist v) (hlist v')
    (List.forall_mem_singleton.2 h)

end CqlGlue.Json
