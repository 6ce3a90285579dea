import CqlGlue.CommandLine.Reader
import CqlGlue.Proofs.CommandLine.Files

/-!
# Two readings of almost the same words

A value is settled only when the next word comes, so two command lines that differ in one option
differ in what is pending right behind it, and from the next settling on in one key that is given.
Every word that follows keeps them so, because no step asks for the output path.

## Main definitions
* `State.Adds` says that a reading has the output path besides.
* `State.Leads` says that it is going to have it once the pending is settled.
* `State.Carries` says that a step keeps two readings so.
* `State.HoldsOfOptions` says what it takes for a property to hold of the reading of options.

## Main statements
* `State.carries_foldlM`: reading words keeps two readings so.
-/

namespace CqlGlue.CommandLine

namespace State

/-- Two readings differ in that the second has the output path besides. -/
structure Adds (path : String) (s s' : State) : Prop where
  given : ∃ before after, s.given = before ++ after ∧
    s'.given = before ++ (.output, [path]) :: after
  pending : s'.pending = s.pending
  escaped : s'.escaped = s.escaped
  placed : s'.placed = s.placed

variable {path : String} {s s' t u : State} {k : Key}

namespace Adds

theorem has_eq (h : Adds path s s') (hk : k ≠ .output) : s'.has k = s.has k := by
  obtain ⟨before, after, hs, hs'⟩ := h.given
  have hne : (Key.output == k) = false := beq_false_of_ne (Ne.symm hk)
  simp [has, hs, hs', hne]

theorem values_eq (h : Adds path s s') (hk : k ≠ .output) : s'.values k = s.values k := by
  obtain ⟨before, after, hs, hs'⟩ := h.given
  have hne : (Key.output == k) = false := beq_false_of_ne (Ne.symm hk)
  simp [values, hs, hs', hne]

theorem value?_eq (h : Adds path s s') (hk : k ≠ .output) : s'.value? k = s.value? k := by
  rw [value?, value?, h.values_eq hk]

/-- The path is the only one. -/
theorem value?_output (h : Adds path s s') (hs : s.has .output = false) :
    s'.value? .output = some path := by
  obtain ⟨before, after, hgiven, hgiven'⟩ := h.given
  have hbefore : before.filter (·.1 == Key.output) = [] := by
    rw [List.filter_eq_nil_iff]
    intro x hx
    exact List.any_eq_false.1 hs x (hgiven ▸ List.mem_append_left _ hx)
  rw [value?, values, hgiven', List.filter_append, hbefore, List.nil_append, List.filter_cons]
  rfl

theorem note (h : Adds path s s') (k : Key) (values : List String) :
    Adds path (s.note k values) (s'.note k values) where
  given := by
    obtain ⟨before, after, hs, hs'⟩ := h.given
    refine ⟨before, after ++ [(k, values)], ?_, ?_⟩
    · rw [State.note, hs, List.append_assoc]
    · rw [State.note, hs', List.append_assoc, List.cons_append]
  pending := h.pending
  escaped := h.escaped
  placed := h.placed

end Adds

/-- The keys that are settled or pending. -/
def keys (s : State) : List Key := s.given.map Prod.fst ++ (s.pending.map Prod.fst).toList

/-- A key is given only when it is among the keys. -/
theorem has_eq_false (h : k ∉ s.keys) : s.has k = false := by
  rw [has, List.any_eq_false]
  rintro x hx hk
  rw [beq_iff_eq] at hk
  exact h (hk ▸ List.mem_append_left _ (List.mem_map_of_mem hx))

theorem keys_eq_of_pending (h : s.pending = none) : s.keys = s.given.map Prod.fst := by
  simp [keys, h]

theorem keys_note (h : s.pending = none) (k : Key) (values : List String) :
    (s.note k values).keys = s.keys ++ [k] := by
  simp [keys, note, h]

/-- What comes later in a reading: no key is forgotten, and the output path is not without its
value. -/
structure Grows (s t : State) : Prop where
  keys : s.keys <+: t.keys
  valued : (∀ x ∈ s.given, x.1 = .output → x.2 ≠ []) → ∀ x ∈ t.given, x.1 = .output → x.2 ≠ []

theorem Grows.refl (s : State) : Grows s s := ⟨List.prefix_refl _, id⟩

theorem Grows.trans (hs : Grows s t) (ht : Grows t u) : Grows s u :=
  ⟨hs.keys.trans ht.keys, ht.valued ∘ hs.valued⟩

theorem Grows.notMem (h : Grows s t) (hk : k ∉ t.keys) : k ∉ s.keys :=
  fun hmem => hk (h.keys.subset hmem)

/-- Noting a key is growing, also where it was pending before. -/
theorem grows_note {values : List String} (hkeys : s.keys <+: s.given.map Prod.fst ++ [k])
    (hvalues : k = .output → values ≠ []) :
    Grows s { s.note k values with pending := none } where
  keys := by simpa [State.keys, note] using hkeys
  valued := by
    intro h x hx
    rcases List.mem_append.1 hx with hx | hx
    · exact h x hx
    · rw [List.mem_singleton.1 hx]
      exact hvalues

/-- A step of the reading, made when nothing is pending, that does not care whether the output
path is there. -/
structure Respects (step : State → Except UsageError State) : Prop where
  grows : ∀ {s t}, s.pending = none → step s = .ok t → Grows s t
  adds : ∀ {path s s' t}, s.pending = none → step s = .ok t → .output ∉ t.keys →
    Adds path s s' → ∃ t', step s' = .ok t' ∧ Adds path t t'

/-- Noting a key as settled, with values that depend on nothing but whether it is given. -/
theorem respects_note (k : Key) (values : Bool → Except UsageError (List String))
    (hvalues : k = .output → ∀ isGiven, values isGiven ≠ .ok []) :
    Respects fun s => (values (s.has k)).map (s.note k) where
  grows := by
    intro s t hs h
    obtain ⟨vs, hv, rfl⟩ := exists_of_map_eq_ok h
    have hgrows : Grows s { s.note k vs with pending := none } :=
      grows_note (by simp [keys, hs]) fun hk hvs => hvalues hk _ (hvs ▸ hv)
    rwa [show { s.note k vs with pending := none } = s.note k vs by rw [note, hs]] at hgrows
  adds := by
    intro path s s' t hs h ht hadds
    obtain ⟨vs, hv, rfl⟩ := exists_of_map_eq_ok h
    have hk : k ≠ .output := by
      rintro rfl
      simp [keys_note hs] at ht
    rw [hadds.has_eq hk, hv]
    exact ⟨_, rfl, hadds.note k vs⟩

/-- What a key is settled with, if it can be. -/
def settledValues (k : Key) (v : String) (isGiven : Bool) : Except UsageError (List String) :=
  if !k.repeats && isGiven then .error (.repeated k)
  else
    match k.kind with
    | .path => if v.isEmpty then .error (.emptyPath k) else .ok [v]
    | .level =>
      match Verbosity.ofName? v with
      | some _ => .ok [v]
      | none => .error (.badVerbosity v)
    | .texts => .ok (Text.pieces ',' v)
    | _ => .ok [v]

theorem settledValues_output_ne (v : String) (isGiven : Bool) :
    settledValues .output v isGiven ≠ .ok [] := by
  rw [settledValues]
  cases isGiven
  · change (if v.isEmpty then Except.error (UsageError.emptyPath .output) else .ok [v]) ≠ .ok []
    split <;> simp
  · exact nofun

theorem record_eq (s : State) (k : Key) (v : String) :
    s.record k v = (settledValues k v (s.has k)).map (s.note k) := by
  rw [record, settledValues]
  split
  · rfl
  · cases k.kind with
    | path => cases v.isEmpty <;> rfl
    | level => cases Verbosity.ofName? v <;> rfl
    | _ => rfl

theorem respects_record (k : Key) (v : String) : Respects (record · k v) := by
  simp only [record_eq]
  exact respects_note k (settledValues k v) fun hk => hk ▸ settledValues_output_ne v

/-- What a flag is settled with, if it can be. -/
def raisedValues (k : Key) (isGiven : Bool) : Except UsageError (List String) :=
  match k.kind with
  | .help => .error .helpAsked
  | .version => .error .versionAsked
  | _ => if isGiven then .error (.repeated k) else .ok []

theorem raise_eq (s : State) (k : Key) :
    s.raise k = s.settle >>= fun t => (raisedValues k (t.has k)).map (t.note k) := by
  refine bind_congr fun t => ?_
  rw [raisedValues]
  cases k.kind <;> cases t.has k <;> rfl

/-- Noting what is pending forgets nothing. -/
theorem respects_await (k : Key) (v : Option String) (placed : Bool → Bool) :
    Respects fun s => .ok { s with pending := some (k, v), placed := placed s.placed } where
  grows := by
    intro s t hs h
    cases h
    exact ⟨by simp [keys, hs], id⟩
  adds := by
    intro path s s' t _ h _ hadds
    cases h
    exact ⟨_, rfl, hadds.given, rfl, hadds.escaped, congrArg placed hadds.placed⟩

/-! ## Settling -/

/-- What is settled was waiting for nothing. -/
structure Settles (s t : State) : Prop where
  grows : Grows s t
  keys : t.keys = s.keys
  pending : t.pending = none
  escaped : t.escaped = s.escaped
  placed : t.placed = s.placed
  awaits : s.awaits = false

theorem settles (h : s.settle = .ok t) : Settles s t := by
  obtain ⟨given, pending, escaped, placed⟩ := s
  rcases pending with _ | ⟨k, _ | v⟩
  · cases h
    exact ⟨.refl _, rfl, rfl, rfl, rfl, rfl⟩
  · cases h
  · simp only [settle, record_eq] at h
    obtain ⟨vs, hv, rfl⟩ := exists_of_map_eq_ok h
    have hvs : k = .output → vs ≠ [] := by
      rintro rfl rfl
      exact settledValues_output_ne v _ hv
    exact ⟨grows_note (by simp [keys]) hvs, by simp [keys, note], rfl, rfl, rfl, rfl⟩

theorem adds_settle (h : s.settle = .ok t) (ht : .output ∉ t.keys) (hadds : Adds path s s') :
    ∃ t', s'.settle = .ok t' ∧ Adds path t t' := by
  rw [settle] at h ⊢
  rw [hadds.pending]
  split at h
  · cases h
    exact ⟨s', rfl, hadds⟩
  · cases h
  · exact (respects_record _ _).adds rfl h ht ⟨hadds.given, rfl, hadds.escaped, hadds.placed⟩

/-! ## Options -/

/-- A property of parts of the reading that holds of all that an option can do, and of a part behind
another. -/
structure HoldsOfOptions (P : (State → Except UsageError State) → Prop) : Prop where
  error : ∀ e, P fun _ => .error e
  nil : P .ok
  bind : ∀ {f g}, P f → P g → P fun s => f s >>= g
  raise : ∀ {k : Key}, k.takesValue = false → P (raise · k)
  await : ∀ k, P (await · k)
  attach : ∀ k v, P (attach · k v)

namespace HoldsOfOptions

variable {P : (State → Except UsageError State) → Prop}

theorem readLong (h : HoldsOfOptions P) (spec : Spec) (name : String) (value : Option String) :
    P (State.readLong spec · name value) := by
  cases hk : spec.longs.lookup name with
  | none =>
    simp only [State.readLong, hk]
    exact h.error _
  | some k =>
    simp only [State.readLong, hk]
    cases htakes : k.takesValue <;> cases value
    · exact h.raise htakes
    · exact h.error _
    · exact h.await k
    · exact h.attach k _

theorem readShorts (h : HoldsOfOptions P) (spec : Spec) (letters : List Char) :
    P (State.readShorts spec letters) := by
  induction letters with
  | nil => exact h.nil
  | cons c cs ih =>
    cases hk : spec.shorts.lookup c with
    | none =>
      simp only [State.readShorts, hk]
      exact h.error _
    | some k =>
      simp only [State.readShorts, hk]
      cases htakes : k.takesValue with
      | false => exact h.bind (h.raise htakes) ih
      | true =>
        simp only [if_true]
        split
        · exact h.await k
        · exact h.attach k _
        · exact h.attach k _

end HoldsOfOptions

/-! ## Readings that are going to agree -/

/-- Once the pending is settled, the second reading has the output path besides. -/
structure Leads (path : String) (s s' : State) : Prop where
  settle : ∀ {t}, s.settle = .ok t → .output ∉ t.keys →
    ∃ t', s'.settle = .ok t' ∧ Adds path t t'
  escaped : s'.escaped = s.escaped
  placed : s'.placed = s.placed
  /-- An option waits for its value in both readings, which then differ no more, or in none. -/
  awaits : Adds path s s' ∨ s.awaits = false ∧ s'.awaits = false

theorem Adds.leads (h : Adds path s s') : Leads path s s' where
  settle hsettle ht := adds_settle hsettle ht h
  escaped := h.escaped
  placed := h.placed
  awaits := .inl h

theorem Leads.awaits_eq (h : Leads path s s') : s'.awaits = s.awaits := by
  rcases h.awaits with hadds | ⟨hs, hs'⟩
  · rw [State.awaits, State.awaits, hadds.pending]
  · rw [hs, hs']

/-- A part of the reading that forgets nothing and keeps two readings on the way to agreement. -/
structure Carries (op : State → Except UsageError State) : Prop where
  grows : ∀ {s t}, op s = .ok t → Grows s t
  leads : ∀ {path s s' t}, op s = .ok t → .output ∉ t.keys → Leads path s s' →
    ∃ t', op s' = .ok t' ∧ Leads path t t'

theorem carries_error (e : UsageError) : Carries fun _ => .error e where
  grows := nofun
  leads := nofun

theorem carries_nil : Carries .ok where
  grows := by
    intro s t h
    cases h
    exact .refl s
  leads := by
    intro path s s' t h _ hleads
    cases h
    exact ⟨s', rfl, hleads⟩

/-- Whatever settles the pending first and respects the output path then. -/
theorem Respects.carries {g : State → Except UsageError State} (hg : Respects g) :
    Carries fun s => s.settle >>= g where
  grows := by
    intro s u h
    obtain ⟨t, ht, hu⟩ := exists_of_bind_eq_ok h
    exact (settles ht).grows.trans (hg.grows (settles ht).pending hu)
  leads := by
    intro path s s' u h hfree hleads
    obtain ⟨t, ht, hu⟩ := exists_of_bind_eq_ok h
    have hnone := (settles ht).pending
    obtain ⟨t', ht', hadds⟩ := hleads.settle ht ((hg.grows hnone hu).notMem hfree)
    obtain ⟨u', hu', hadds'⟩ := hg.adds hnone hu hfree hadds
    exact ⟨u', by rw [ht']; exact hu', hadds'.leads⟩

theorem Carries.bind {f g : State → Except UsageError State} (hf : Carries f) (hg : Carries g) :
    Carries fun s => f s >>= g where
  grows := by
    intro s u h
    obtain ⟨t, ht, hu⟩ := exists_of_bind_eq_ok h
    exact (hf.grows ht).trans (hg.grows hu)
  leads := by
    intro path s s' u h hfree hleads
    obtain ⟨t, ht, hu⟩ := exists_of_bind_eq_ok h
    obtain ⟨t', ht', hleads'⟩ := hf.leads ht ((hg.grows hu).notMem hfree) hleads
    obtain ⟨u', hu', hleads''⟩ := hg.leads hu hfree hleads'
    exact ⟨u', by rw [ht']; exact hu', hleads''⟩

theorem carries_attach (k : Key) (v : String) : Carries (attach · k v) :=
  (respects_record k v).carries

theorem carries_await (k : Key) : Carries (await · k) := (respects_await k none id).carries

theorem carries_raise {k : Key} (hk : k.takesValue = false) : Carries (raise · k) := by
  simp only [raise_eq]
  refine (respects_note k (raisedValues k) ?_).carries
  rintro rfl
  cases hk

theorem holdsOfOptions_carries : HoldsOfOptions Carries where
  error := carries_error
  nil := carries_nil
  bind := Carries.bind
  raise := carries_raise
  await := carries_await
  attach := carries_attach

/-- A part of the reading may depend on what the two readings have in common. -/
theorem Carries.of_eq {op : State → Except UsageError State}
    (branch : Bool → Bool → State → Except UsageError State)
    (h : ∀ escaped placed, Carries (branch escaped placed))
    (hop : ∀ s, op s = branch s.escaped s.placed s) : Carries op where
  grows := by
    intro s t hs
    exact (h s.escaped s.placed).grows (hop s ▸ hs)
  leads := by
    intro path s s' t hs hfree hleads
    rw [hop s', hleads.escaped, hleads.placed]
    exact (h s.escaped s.placed).leads (hop s ▸ hs) hfree hleads

theorem carries_place (spec : Spec) (text : String) : Carries (place spec · text) := by
  cases hk : spec.positional with
  | none =>
    refine Carries.of_eq (fun escaped _ _ => .error
      (if escaped && (text == "help" || (Subcommand.ofName? text).isSome) then
        .unknownArgument text else .unknownCommand text)) (fun _ _ => carries_error _) fun s => ?_
    simp only [place, hk]
    split <;> simp_all
  | some k =>
    refine Carries.of_eq (fun _ placed s =>
      if placed then .error (.unknownArgument text)
      else s.settle >>= fun t => .ok { t with pending := some (k, some text), placed := true })
      (fun _ placed => ?_) fun s => ?_
    · cases placed
      · exact (respects_await k (some text) fun _ => true).carries
      · exact carries_error _
    · simp only [place, hk]
      cases s.placed <;> rfl

/-- A plain word is the value of what waits for one, or else an argument. -/
theorem carries_plain (spec : Spec) (text : String) :
    Carries fun s =>
      match s.pending with
      | some (k, none) => .ok { s with pending := some (k, some text) }
      | _ => s.place spec text where
  grows := by
    intro s t h
    split at h
    · rename_i k hpending
      cases h
      exact ⟨by simp [keys, hpending], id⟩
    · exact (carries_place spec text).grows h
  leads := by
    intro path s s' t h hfree hleads
    rcases hleads.awaits with hadds | ⟨hs, hs'⟩
    · rw [hadds.pending]
      split at h
      · rename_i k hpending
        cases h
        refine ⟨_, rfl, Adds.leads ⟨hadds.given, ?_, hadds.escaped, hadds.placed⟩⟩
        simp
      · exact (carries_place spec text).leads h hfree hleads
    · have hplace : ∀ {s : State}, s.awaits = false →
          (match s.pending with
          | some (k, none) => .ok { s with pending := some (k, some text) }
          | _ => s.place spec text) = s.place spec text := by
        intro s hs
        split
        · rename_i hpending
          simp [awaits, hpending] at hs
        · rfl
      rw [hplace hs] at h
      rw [hplace hs']
      exact (carries_place spec text).leads h hfree hleads

theorem settle_escape (s : State) :
    { s with escaped := true }.settle = s.settle.map fun t => { t with escaped := true } := by
  obtain ⟨given, pending, escaped, placed⟩ := s
  rcases pending with _ | ⟨k, _ | v⟩
  · rfl
  · rfl
  · simp only [settle, record_eq]
    cases h : settledValues k v (has ⟨given, none, escaped, placed⟩ k)
    all_goals
      change settledValues k v (has ⟨given, none, true, placed⟩ k) = _ at h
      rw [h]
      rfl

theorem carries_escape : Carries fun s => .ok { s with escaped := true } where
  grows := by
    intro s t h
    cases h
    exact ⟨List.prefix_refl _, id⟩
  leads := by
    have hadds : ∀ {path s s'}, Adds path s s' →
        Adds path { s with escaped := true } { s' with escaped := true } :=
      fun h => ⟨h.given, h.pending, rfl, h.placed⟩
    intro path s s' t h _ hleads
    cases h
    refine ⟨_, rfl, ?_, rfl, hleads.placed, hleads.awaits.imp_left hadds⟩
    intro u hu hfree
    rw [settle_escape] at hu ⊢
    obtain ⟨t, hs, rfl⟩ := exists_of_map_eq_ok hu
    obtain ⟨t', ht', h⟩ := hleads.settle hs hfree
    rw [ht']
    exact ⟨_, rfl, hadds h⟩

/-- A word is a value behind the escape, and else what it is by itself. -/
theorem Carries.step {spec : Spec} {text : String} {branch : State → Except UsageError State}
    (hbranch : Carries branch)
    (h : ∀ s : State, s.escaped = false → s.step spec text = branch s) :
    Carries (State.step spec · text) := by
  refine Carries.of_eq (fun escaped _ s => if escaped then s.place spec text else branch s)
    (fun escaped _ => ?_) fun s => ?_
  · cases escaped with
    | true => exact carries_place spec text
    | false => exact hbranch
  · cases hs : s.escaped with
    | true => rw [State.step, hs, if_pos rfl, if_pos rfl]
    | false => exact h s hs

theorem carries_step (spec : Spec) (text : String) : Carries (step spec · text) := by
  cases hword : Word.ofText text with
  | escape => exact carries_escape.step fun s hs => by rw [State.step, hs, hword]; rfl
  | long name value =>
    exact (holdsOfOptions_carries.readLong spec name value).step fun s hs => by
      rw [State.step, hs, hword]
      rfl
  | shorts letters =>
    exact (holdsOfOptions_carries.readShorts spec letters).step fun s hs => by
      rw [State.step, hs, hword]
      rfl
  | plain => exact (carries_plain spec text).step fun s hs => by rw [State.step, hs, hword]; rfl

theorem carries_foldlM (spec : Spec) (texts : List String) :
    Carries fun s => texts.foldlM (step spec) s := by
  induction texts with
  | nil => exact carries_nil
  | cons text texts ih => exact (carries_step spec text).bind ih

end State

end CqlGlue.CommandLine
