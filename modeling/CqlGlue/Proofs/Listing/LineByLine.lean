import CqlGlue.Proofs.Listing.Definitions
import CqlGlue.Proofs.Listing.Separator

/-!
# Reading a listing line by line

Reading looks past the end of a line in two places. Behind a separator it looks for the
right-hand side, on the following lines if nothing visible stands on its own; and in front of a
separator it looks for the name, on the line before the blanks. So the lines of a text are read
each for itself unless a line that ends with its separator stands in front of a visible one, or a
line that begins with a separator stands behind a visible one. Where a separator that begins a
line stands behind a line end, it is the one that counts, although it may not be the last.

## Main definitions
* `sidesOf` are the left and right-hand sides that are read from a text, `ReadsByLine` says that
  they are those of its lines.
* `Grammar.parseLines` reads every line on its own and merges what is read.
* `StandApart` are the lines that do not reach into one another.

## Main statements
* `sidesOf_following_eq_iff` and `sidesOf_append_following_eq_iff` compare line by line.
* `readsByLine_iff` says which texts are read line by line, and that their grammars are.
-/

namespace CqlGlue.Listing

open Text

/-! ## Definitions -/

/-- Left and right-hand sides as they are read, names trimmed. -/
def sidesOf (cs : List Char) : List (List Char × List Char) :=
  (definitions cs).map fun d => (trim d.1, d.2)

/-- The text is read as its lines are. -/
def ReadsByLine (cs : List Char) : Prop := sidesOf cs = (splitChar '\n' cs).flatMap sidesOf

instance (cs : List Char) : Decidable (ReadsByLine cs) :=
  inferInstanceAs (Decidable (sidesOf cs = _))

/-- Adds the definitions of a grammar that is read later. -/
def Grammar.merge (g later : Grammar) : Grammar := Grammar.defineAll g later.entries

/-- Every line read on its own, one after the other. -/
def Grammar.parseLines (text : String) : Grammar :=
  ((splitChar '\n' text.toList).map fun line => Grammar.parse (String.ofList line)).foldl
    Grammar.merge Table.empty

/-- A separator is the first that is visible on the line. -/
def Opens (line : List Char) : Prop := defines <+: trimLeft line

/-- A separator is the last that is visible on the line. -/
def EndsOpen (line : List Char) : Prop := defines <:+ trimRight line

instance (line : List Char) : Decidable (Opens line) :=
  inferInstanceAs (Decidable (defines <+: trimLeft line))

instance (line : List Char) : Decidable (EndsOpen line) :=
  inferInstanceAs (Decidable (defines <:+ trimRight line))

/-- Lines behind a line end that do not reach into one another. -/
structure Behind (lines : List (List Char)) : Prop where
  /-- Nothing visible stands behind a line that ends with its separator. -/
  closed : lines.Pairwise fun l m => EndsOpen l → AllBlank m
  /-- A line that begins with a separator has no other. -/
  once : ∀ m ∈ lines, Opens m → SeparatesOnce m
  /-- Nothing else stands in front of a line that begins with a separator. -/
  opened : lines.Pairwise fun l m => Opens m → AllBlank l ∨ Opens l

instance (lines : List (List Char)) : Decidable (Behind lines) :=
  decidable_of_iff ((lines.Pairwise fun l m => EndsOpen l → AllBlank m) ∧
      (∀ m ∈ lines, Opens m → SeparatesOnce m) ∧
      lines.Pairwise fun l m => Opens m → AllBlank l ∨ Opens l)
    ⟨fun h => ⟨h.1, h.2.1, h.2.2⟩, fun h => ⟨h.closed, h.once, h.opened⟩⟩

/-- Lines that do not reach into one another. No line end stands in front of the first one, so
what begins with a separator must not stand behind it even if it begins with one as well. -/
def StandApart : List (List Char) → Prop
  | [] => True
  | l :: rest =>
    (EndsOpen l → ∀ m ∈ rest, AllBlank m) ∧ (∀ m ∈ rest, Opens m → AllBlank l) ∧ Behind rest

instance : (lines : List (List Char)) → Decidable (StandApart lines)
  | [] => inferInstanceAs (Decidable True)
  | _ :: _ => inferInstanceAs (Decidable (_ ∧ _ ∧ _))

/-! ## Single lines -/

section

variable {l a b blanks : List Char}

theorem not_opens_of_allBlank (h : AllBlank l) : ¬ Opens l := by
  rw [Opens, trimLeft_of_allBlank h]
  decide

theorem not_endsOpen_of_noSeparator (h : ¬ defines <:+: l) : ¬ EndsOpen l := by
  intro hends
  obtain ⟨blanks, -, heq⟩ := exists_append_blank l
  refine h (hends.isInfix.trans ?_)
  conv => rhs; rw [heq]
  exact (List.prefix_append _ _).isInfix

/-- A line that is cut at its last separator ends with it if nothing visible stands behind. -/
theorem endsOpen_iff (h : ¬ defines <:+: a) : EndsOpen (b ++ (defines ++ a)) ↔ AllBlank a := by
  rw [EndsOpen, trimRight_defines, ← trimRight_eq_nil_iff]
  constructor
  · rintro ⟨front, hfront⟩
    have hright : ¬ defines <:+: trimRight a := by
      obtain ⟨blanks, hblanks, heq⟩ := exists_append_blank a
      rwa [heq, infix_append_blank hblanks] at h
    have hcut := splitLast_defines hright b
    rw [List.append_assoc, ← hfront, ← List.append_nil (front ++ defines),
      splitLast_defines (by decide)] at hcut
    exact (congrArg Prod.snd (Option.some.inj hcut)).symm
  · intro ha
    rw [ha, List.append_nil]
    exact List.suffix_append b defines

theorem sidesOf_nil : sidesOf [] = [] := by
  rw [sidesOf, definitions_nil]
  rfl

theorem sidesOf_line (h : '\n' ∉ l) :
    sidesOf l = ((splitLast defines l).map fun p => (trim p.1, trimLeft p.2)).toList := by
  rw [sidesOf, definitions_of_line h]
  cases splitLast defines l <;> rfl

theorem sidesOf_line_of_noSeparator (hline : '\n' ∉ l) (h : ¬ defines <:+: l) : sidesOf l = [] := by
  rw [sidesOf_line hline, splitLast_eq_none_iff.2 h]
  rfl

theorem sidesOf_line_of_splitLast (hline : '\n' ∉ l) (h : splitLast defines l = some (b, a)) :
    sidesOf l = [(trim b, trimLeft a)] := by
  rw [sidesOf_line hline, h]
  rfl

/-- A line that begins with its only separator defines the empty name. -/
theorem sidesOf_opens (hline : '\n' ∉ blanks ++ (defines ++ a)) (hblanks : AllBlank blanks)
    (h : ¬ defines <:+: a) : sidesOf (blanks ++ (defines ++ a)) = [([], trimLeft a)] := by
  have hcut := splitLast_defines h blanks
  rw [List.append_assoc] at hcut
  rw [sidesOf_line_of_splitLast hline hcut, trim_of_allBlank hblanks]

/-- A line that begins with one of its separators defines a name that holds one. -/
theorem sidesOf_opens_of_infix (hline : '\n' ∉ blanks ++ (defines ++ a)) (h : defines <:+: a) :
    ∃ name body, sidesOf (blanks ++ (defines ++ a)) = [(name, body)] ∧ defines <:+: name := by
  cases hcut : splitLast defines a with
  | none => exact absurd h (splitLast_eq_none_iff.1 hcut)
  | some p =>
    obtain ⟨x, y⟩ := p
    have hcut' := splitLast_append hcut (blanks ++ defines)
    rw [List.append_assoc] at hcut'
    refine ⟨_, _, sidesOf_line_of_splitLast hline hcut', infix_trim_iff.2 ?_⟩
    exact ⟨blanks, x, rfl⟩

end

/-! ## Lines behind one another -/

/-- Lines, each with its line end in front. -/
def following (lines : List (List Char)) : List Char := lines.flatMap fun l => '\n' :: l

theorem splitChar_append_following {l : List Char} {rest : List (List Char)} (hl : '\n' ∉ l)
    (h : ∀ m ∈ rest, '\n' ∉ m) : splitChar '\n' (l ++ following rest) = l :: rest := by
  induction rest generalizing l with
  | nil =>
    rw [following, List.flatMap_nil, List.append_nil]
    exact splitChar_of_not_mem hl
  | cons m rest ih =>
    have hrest := ih (h m List.mem_cons_self) fun m' hm => h m' (List.mem_cons_of_mem _ hm)
    rw [following, List.flatMap_cons, List.cons_append, splitChar_append_cons hl]
    exact congrArg (l :: ·) hrest

/-- Every text is a line with lines behind it. -/
theorem exists_following (cs : List Char) :
    ∃ l rest, cs = l ++ following rest ∧ '\n' ∉ l ∧ ∀ m ∈ rest, '\n' ∉ m := by
  induction cs with
  | nil => exact ⟨[], [], rfl, by simp, by simp⟩
  | cons c cs ih =>
    obtain ⟨l, rest, rfl, hl, hrest⟩ := ih
    by_cases hc : c = '\n'
    · refine ⟨[], l :: rest, ?_, by simp, ?_⟩
      · rw [hc]
        rfl
      · rintro m hm
        rcases List.mem_cons.1 hm with rfl | hm
        · exact hl
        · exact hrest m hm
    · exact ⟨c :: l, rest, rfl, by simp [Ne.symm hc, hl], hrest⟩

section

variable {l m a b after : List Char} {rest : List (List Char)}

theorem head_following (rest : List (List Char)) : ∀ c ∈ (following rest).head?, c = '\n' := by
  cases rest with
  | nil => simp [following]
  | cons m rest => simp [following]

theorem trimLeft_following_cons (l : List Char) (rest : List (List Char)) :
    trimLeft (following (l :: rest)) = trimLeft (l ++ following rest) := by
  have hend : AllBlank ['\n'] := by decide
  exact trimLeft_blank_append hend _

/-- A separator that stands in front of everything else that is visible on the lines. -/
theorem dropText?_trimLeft_append_following (hl : ¬ AllBlank l) (rest : List (List Char)) :
    dropText? defines (trimLeft (l ++ following rest)) =
      (dropText? defines (trimLeft l)).map (· ++ following rest) := by
  rw [trimLeft_append_of_ne_nil fun hnil => hl (trimLeft_eq_nil_iff.1 hnil),
    dropText?_line_append (head_following rest)]

theorem allBlank_following (h : ∀ m ∈ rest, AllBlank m) : AllBlank (following rest) := by
  intro c hc
  obtain ⟨m, hm, hmem⟩ := List.mem_flatMap.1 hc
  rcases List.mem_cons.1 hmem with rfl | hmem
  · decide
  · exact h m hm c hmem

theorem allBlank_of_following (h : AllBlank (following rest)) : ∀ m ∈ rest, AllBlank m :=
  fun m hm c hc => h c (List.mem_flatMap.2 ⟨m, hm, List.mem_cons_of_mem _ hc⟩)

/-! ### What is taken off the front -/

/-- Where a separator is the next that is visible, the line in front of it is a name. -/
theorem sidesOf_of_opens (hl : '\n' ∉ l)
    (h : dropText? defines (trimLeft (following rest)) = some after) :
    sidesOf (l ++ following rest) =
      (trim l, lineOf (trimLeft after)) :: sidesOf (afterLine (trimLeft after)) := by
  obtain ⟨hline, hbehind⟩ := lineOf_append hl (head_following rest)
  have hsplit : splitDefinition (l ++ following rest) = some (l, after) := by
    rw [splitDefinition, hline, hbehind, h]
  rw [sidesOf, definitions_of_some hsplit]
  rfl

/-- Right behind a line end the name is empty. -/
theorem sidesOf_following_of_opens
    (h : dropText? defines (trimLeft (following rest)) = some after) :
    sidesOf (following rest) =
      ([], lineOf (trimLeft after)) :: sidesOf (afterLine (trimLeft after)) :=
  sidesOf_of_opens (l := []) List.not_mem_nil h

theorem splitDefinition_append_following (hl : '\n' ∉ l)
    (h : dropText? defines (trimLeft (following rest)) = none) :
    splitDefinition (l ++ following rest) =
      (splitLast defines l).map fun p => (p.1, p.2 ++ following rest) := by
  obtain ⟨hline, hbehind⟩ := lineOf_append hl (head_following rest)
  rw [splitDefinition, hline, hbehind, h]

/-- Otherwise the line is cut at its last separator. -/
theorem sidesOf_of_splitLast (hl : '\n' ∉ l)
    (h : dropText? defines (trimLeft (following rest)) = none)
    (hcut : splitLast defines l = some (b, a)) :
    sidesOf (l ++ following rest) = (trim b, lineOf (trimLeft (a ++ following rest))) ::
      sidesOf (afterLine (trimLeft (a ++ following rest))) := by
  have hsplit := splitDefinition_append_following hl h
  rw [hcut] at hsplit
  rw [sidesOf, definitions_of_some hsplit]
  rfl

/-- A line without a separator is passed over. -/
theorem sidesOf_of_noSeparator (hl : '\n' ∉ l)
    (h : dropText? defines (trimLeft (following rest)) = none) (hnot : ¬ defines <:+: l) :
    sidesOf (l ++ following rest) = sidesOf (following rest) := by
  have hpass : ∀ {l : List Char}, '\n' ∉ l → ¬ defines <:+: l →
      sidesOf (l ++ following rest) = sidesOf (following rest).tail := by
    intro l hl hnot
    have hsplit := splitDefinition_append_following hl h
    rw [splitLast_eq_none_iff.2 hnot] at hsplit
    rw [sidesOf, definitions_of_none hsplit, (lineOf_append hl (head_following rest)).2]
    rfl
  exact (hpass hl hnot).trans (hpass (l := []) (by simp) (by decide)).symm

/-! ### Blank lines -/

/-- A blank line in front changes nothing. -/
theorem sidesOf_append_following_of_allBlank (hl : '\n' ∉ l) (hblank : AllBlank l) :
    sidesOf (l ++ following rest) = sidesOf (following rest) := by
  cases hdrop : dropText? defines (trimLeft (following rest)) with
  | none => exact sidesOf_of_noSeparator hl hdrop (not_infix_of_allBlank hblank)
  | some after =>
    rw [sidesOf_of_opens hl hdrop, trim_of_allBlank hblank, sidesOf_following_of_opens hdrop]

theorem sidesOf_following_cons_of_none (l : List Char)
    (h : dropText? defines (trimLeft (l ++ following rest)) = none) :
    sidesOf (following (l :: rest)) = sidesOf (l ++ following rest) := by
  rw [← trimLeft_following_cons] at h
  have hsplit := splitDefinition_append_following (l := []) (by simp) h
  rw [List.nil_append] at hsplit
  rw [sidesOf, definitions_of_none hsplit]
  rfl

/-- A blank line behind a line end changes nothing. -/
theorem sidesOf_following_cons_of_allBlank (hl : '\n' ∉ l) (hblank : AllBlank l) :
    sidesOf (following (l :: rest)) = sidesOf (following rest) := by
  have htrim : trimLeft (l ++ following rest) = trimLeft (following rest) :=
    trimLeft_blank_append hblank _
  cases hdrop : dropText? defines (trimLeft (following rest)) with
  | none =>
    rw [sidesOf_following_cons_of_none l (by rw [htrim, hdrop]),
      sidesOf_append_following_of_allBlank hl hblank]
  | some after =>
    have hcons : dropText? defines (trimLeft (following (l :: rest))) = some after := by
      rw [trimLeft_following_cons, htrim, hdrop]
    rw [sidesOf_following_of_opens hcons, sidesOf_following_of_opens hdrop]

theorem flatMap_sidesOf_of_allBlank (hrest : ∀ m ∈ rest, '\n' ∉ m)
    (h : ∀ m ∈ rest, AllBlank m) : rest.flatMap sidesOf = [] :=
  List.flatMap_eq_nil_iff.2 fun m hm =>
    sidesOf_line_of_noSeparator (hrest m hm) (not_infix_of_allBlank (h m hm))

theorem sidesOf_following_of_allBlank (hrest : ∀ m ∈ rest, '\n' ∉ m)
    (h : ∀ m ∈ rest, AllBlank m) : sidesOf (following rest) = [] := by
  induction rest with
  | nil => exact sidesOf_nil
  | cons m rest ih =>
    rw [sidesOf_following_cons_of_allBlank (hrest m List.mem_cons_self) (h m List.mem_cons_self)]
    exact ih (fun l hl => hrest l (List.mem_cons_of_mem _ hl))
      fun l hl => h l (List.mem_cons_of_mem _ hl)

/-! ### Right-hand sides -/

theorem lineOf_trimLeft_ne_nil {cs : List Char} (h : ¬ AllBlank cs) :
    lineOf (trimLeft cs) ≠ [] := by
  cases htrim : trimLeft cs with
  | nil => exact absurd (trimLeft_eq_nil_iff.1 htrim) h
  | cons c rest =>
    have hc : isBlank c = false := head_trimLeft cs c (by rw [htrim]; rfl)
    have hne : c ≠ '\n' := by
      rintro rfl
      exact absurd hc (by decide)
    simp [lineOf, hne]

/-- A definition takes its right-hand side from its own line unless nothing visible stands there
while something visible follows. -/
theorem cons_sidesOf_eq_iff (ha : '\n' ∉ a) (hrest : ∀ m ∈ rest, '\n' ∉ m) (name : List Char) :
    (name, lineOf (trimLeft (a ++ following rest))) ::
        sidesOf (afterLine (trimLeft (a ++ following rest))) =
      (name, trimLeft a) :: rest.flatMap sidesOf ↔
    (AllBlank a → ∀ m ∈ rest, AllBlank m) ∧ sidesOf (following rest) = rest.flatMap sidesOf := by
  by_cases hblank : AllBlank a
  · rw [trimLeft_blank_append hblank, trimLeft_of_allBlank hblank]
    by_cases hall : ∀ m ∈ rest, AllBlank m
    · rw [trimLeft_of_allBlank (allBlank_following hall), sidesOf_following_of_allBlank hrest hall,
        flatMap_sidesOf_of_allBlank hrest hall]
      exact iff_of_true (congrArg _ sidesOf_nil) ⟨fun _ => hall, rfl⟩
    · refine iff_of_false (fun h => ?_) fun h => hall (h.1 hblank)
      have hbody := congrArg Prod.snd (List.cons.inj h).1
      exact lineOf_trimLeft_ne_nil (fun hf => hall (allBlank_of_following hf)) hbody
  · have hvisible : trimLeft a ≠ [] := fun hnil => hblank (trimLeft_eq_nil_iff.1 hnil)
    have hline : '\n' ∉ trimLeft a := fun hmem => ha ((List.dropWhile_sublist _).subset hmem)
    obtain ⟨hbody, hbehind⟩ := lineOf_append hline (head_following rest)
    rw [trimLeft_append_of_ne_nil hvisible, hbody, hbehind]
    constructor
    · exact fun h => ⟨fun hall => absurd hall hblank, (List.cons.inj h).2⟩
    · exact fun h => congrArg _ h.2

/-! ### Lines that begin with a separator -/

/-- A separator that is the next that is visible begins a line, and in front of this line nothing
is defined. -/
theorem exists_opens (hrest : ∀ m ∈ rest, '\n' ∉ m)
    (h : dropText? defines (trimLeft (following rest)) = some after) :
    ∃ m ∈ rest, Opens m ∧ ∃ others, rest.flatMap sidesOf = sidesOf m ++ others := by
  induction rest with
  | nil => cases h
  | cons l rest ih =>
    have hl := hrest l List.mem_cons_self
    rw [trimLeft_following_cons] at h
    by_cases hblank : AllBlank l
    · rw [trimLeft_blank_append hblank] at h
      obtain ⟨m, hm, hopens, others, hothers⟩ :=
        ih (fun m hm => hrest m (List.mem_cons_of_mem _ hm)) h
      refine ⟨m, List.mem_cons_of_mem _ hm, hopens, others, ?_⟩
      rw [List.flatMap_cons, sidesOf_line_of_noSeparator hl (not_infix_of_allBlank hblank), hothers]
      rfl
    · rw [dropText?_trimLeft_append_following hblank] at h
      obtain ⟨back, hback, -⟩ := Option.map_eq_some_iff.1 h
      exact ⟨l, List.mem_cons_self, ⟨back, (dropText?_eq_some_iff.1 hback).symm⟩,
        rest.flatMap sidesOf, List.flatMap_cons⟩

/-- Where only such lines stand in front of it, a line that begins with a separator is the next
that is visible, or another one is. -/
theorem exists_drop_of_opens (h : rest.Pairwise fun l m => Opens m → AllBlank l ∨ Opens l)
    (hm : m ∈ rest) (hopens : Opens m) :
    ∃ after, dropText? defines (trimLeft (following rest)) = some after := by
  induction rest with
  | nil => cases hm
  | cons l rest ih =>
    obtain ⟨hfirst, hothers⟩ := List.pairwise_cons.1 h
    rw [trimLeft_following_cons]
    by_cases hblank : AllBlank l
    · rw [trimLeft_blank_append hblank]
      rcases List.mem_cons.1 hm with rfl | hm
      · exact absurd hopens (not_opens_of_allBlank hblank)
      · exact ih hothers hm
    · have hl : Opens l := by
        rcases List.mem_cons.1 hm with rfl | hm
        · exact hopens
        · exact (hfirst m hm hopens).resolve_left hblank
      obtain ⟨back, hback⟩ := hl
      rw [dropText?_trimLeft_append_following hblank, dropText?_eq_some_iff.2 hback.symm]
      exact ⟨_, rfl⟩

/-- The line in front of such a line becomes its name, so the lines are not read each for itself. -/
theorem sidesOf_ne_of_opens (hl : '\n' ∉ l) (hrest : ∀ m ∈ rest, '\n' ∉ m) (hvisible : ¬ AllBlank l)
    (h : dropText? defines (trimLeft (following rest)) = some after) :
    sidesOf (l ++ following rest) ≠ (l :: rest).flatMap sidesOf := by
  rw [sidesOf_of_opens hl h, List.flatMap_cons]
  intro heq
  cases hcut : splitLast defines l with
  | some p =>
    -- The line has a separator: the name it defines on its own is shorter.
    obtain ⟨b, a⟩ := p
    rw [sidesOf_line_of_splitLast hl hcut] at heq
    have hname : trim l = trim b := congrArg Prod.fst (List.cons.inj heq).1
    rw [eq_append_of_splitLast hcut, List.append_assoc, trim_defines] at hname
    obtain ⟨blanks, -, hb⟩ := exists_append_blank (trimLeft b)
    have hlength := congrArg List.length hname
    rw [hb, ← trim] at hlength
    simp only [List.length_append, defines, List.length_cons, List.length_nil] at hlength
    omega
  | none =>
    -- The line has none: what is read next on its own is empty or holds a separator.
    have hnot := splitLast_eq_none_iff.1 hcut
    obtain ⟨m, hm, ⟨back, hback⟩, others, hothers⟩ := exists_opens hrest h
    obtain ⟨blanks, hblanks, hm'⟩ := exists_blank_append m
    have hline := hrest m hm
    rw [sidesOf_line_of_noSeparator hl hnot, List.nil_append, hothers] at heq
    rw [← hback] at hm'
    rw [hm'] at hline heq
    by_cases hin : defines <:+: back
    · obtain ⟨name, body, hsides, hname⟩ := sidesOf_opens_of_infix hline hin
      rw [hsides] at heq
      have hfst : trim l = name := congrArg Prod.fst (List.cons.inj heq).1
      rw [← hfst, infix_trim_iff] at hname
      exact hnot hname
    · rw [sidesOf_opens hline hblanks hin] at heq
      have hfst : trim l = [] := congrArg Prod.fst (List.cons.inj heq).1
      exact hvisible (trim_eq_nil_iff.1 hfst)

/-! ### Line by line -/

theorem behind_cons_iff :
    Behind (l :: rest) ↔ (EndsOpen l → ∀ m ∈ rest, AllBlank m) ∧ (Opens l → SeparatesOnce l) ∧
      (∀ m ∈ rest, Opens m → AllBlank l ∨ Opens l) ∧ Behind rest := by
  constructor
  · rintro ⟨hclosed, honce, hopened⟩
    rw [List.pairwise_cons] at hclosed hopened
    exact ⟨fun hends m hm => hclosed.1 m hm hends, honce l List.mem_cons_self, hopened.1,
      hclosed.2, fun m hm => honce m (List.mem_cons_of_mem _ hm), hopened.2⟩
  · rintro ⟨hclosed, honce, hopened, hrest⟩
    refine ⟨List.pairwise_cons.2 ⟨fun m hm hends => hclosed hends m hm, hrest.closed⟩, ?_,
      List.pairwise_cons.2 ⟨hopened, hrest.opened⟩⟩
    intro m hm
    rcases List.mem_cons.1 hm with rfl | hm
    · exact honce
    · exact hrest.once m hm

variable (hl : '\n' ∉ l) (hrest : ∀ m ∈ rest, '\n' ∉ m)
include hl hrest

/-- A visible line with lines behind it that are read as far as they are read each for itself. -/
theorem sidesOf_visible_iff (hvisible : ¬ AllBlank l)
    (ih : sidesOf (following rest) = rest.flatMap sidesOf ↔ Behind rest) :
    sidesOf (l ++ following rest) = (l :: rest).flatMap sidesOf ↔
      (EndsOpen l → ∀ m ∈ rest, AllBlank m) ∧ (∀ m ∈ rest, ¬ Opens m) ∧ Behind rest := by
  cases hdrop : dropText? defines (trimLeft (following rest)) with
  | some after =>
    obtain ⟨m, hm, hopens, -⟩ := exists_opens hrest hdrop
    exact iff_of_false (sidesOf_ne_of_opens hl hrest hvisible hdrop)
      fun h => h.2.1 m hm hopens
  | none =>
    have hclosed : Behind rest → ∀ m ∈ rest, ¬ Opens m := by
      intro hbehind m hm hopens
      obtain ⟨after, hafter⟩ := exists_drop_of_opens hbehind.opened hm hopens
      rw [hdrop] at hafter
      cases hafter
    cases hcut : splitLast defines l with
    | none =>
      have hnot := splitLast_eq_none_iff.1 hcut
      rw [sidesOf_of_noSeparator hl hdrop hnot, List.flatMap_cons,
        sidesOf_line_of_noSeparator hl hnot, List.nil_append, ih]
      exact ⟨fun h => ⟨fun hends => absurd hends (not_endsOpen_of_noSeparator hnot), hclosed h, h⟩,
        fun h => h.2.2⟩
    | some p =>
      obtain ⟨b, a⟩ := p
      have heq : l = b ++ (defines ++ a) := by
        rw [← List.append_assoc]
        exact eq_append_of_splitLast hcut
      have ha : '\n' ∉ a := fun hmem => hl (by rw [heq]; simp [hmem])
      have hends : EndsOpen l ↔ AllBlank a := by
        rw [heq]
        exact endsOpen_iff (not_infix_of_splitLast (List.cons_ne_nil _ _) hcut)
      rw [sidesOf_of_splitLast hl hdrop hcut, List.flatMap_cons,
        sidesOf_line_of_splitLast hl hcut, List.singleton_append,
        cons_sidesOf_eq_iff ha hrest, ih, hends]
      exact ⟨fun h => ⟨h.1, hclosed h.2, h.2⟩, fun h => ⟨h.1, h.2.2⟩⟩

/-- A line behind a line end that begins with a separator. -/
theorem sidesOf_following_opens_iff (hopens : Opens l)
    (ih : sidesOf (following rest) = rest.flatMap sidesOf ↔ Behind rest) :
    sidesOf (following (l :: rest)) = (l :: rest).flatMap sidesOf ↔
      (EndsOpen l → ∀ m ∈ rest, AllBlank m) ∧ SeparatesOnce l ∧ Behind rest := by
  have hvisible : ¬ AllBlank l := fun hblank => not_opens_of_allBlank hblank hopens
  obtain ⟨back, hback⟩ := hopens
  obtain ⟨blanks, hblanks, heq⟩ := exists_blank_append l
  rw [← hback] at heq
  have hdrop : dropText? defines (trimLeft (following (l :: rest))) =
      some (back ++ following rest) := by
    rw [trimLeft_following_cons, dropText?_trimLeft_append_following hvisible,
      dropText?_eq_some_iff.2 hback.symm]
    rfl
  have honce : SeparatesOnce l ↔ ¬ defines <:+: back := by
    rw [heq]
    exact separatesOnce_iff (not_infix_of_allBlank hblanks)
  rw [heq] at hl
  rw [sidesOf_following_of_opens hdrop, List.flatMap_cons, honce]
  by_cases hin : defines <:+: back
  · obtain ⟨name, body, hsides, hname⟩ := sidesOf_opens_of_infix hl hin
    refine iff_of_false (fun h => ?_) fun h => h.2.1 hin
    rw [heq, hsides] at h
    have hnil : [] = name := congrArg Prod.fst (List.cons.inj h).1
    rw [← hnil] at hname
    exact absurd hname (by decide)
  · have hends : EndsOpen l ↔ AllBlank back := by
      rw [heq]
      exact endsOpen_iff hin
    have hline : '\n' ∉ back := fun hmem => hl (by simp [hmem])
    have hsides : sidesOf l = [([], trimLeft back)] := by
      rw [heq]
      exact sidesOf_opens hl hblanks hin
    rw [hsides, List.singleton_append, cons_sidesOf_eq_iff hline hrest, ih, hends]
    exact ⟨fun h => ⟨h.1, hin, h.2⟩, fun h => ⟨h.1, h.2.2⟩⟩

omit hl in
/-- Lines behind a line end are read each for itself exactly if they do not reach into one
another. -/
theorem sidesOf_following_eq_iff :
    sidesOf (following rest) = rest.flatMap sidesOf ↔ Behind rest := by
  induction rest with
  | nil => exact iff_of_true sidesOf_nil ⟨.nil, by simp, .nil⟩
  | cons l rest ih =>
    have hl := hrest l List.mem_cons_self
    have hothers : ∀ m ∈ rest, '\n' ∉ m := fun m hm => hrest m (List.mem_cons_of_mem _ hm)
    rw [behind_cons_iff]
    by_cases hblank : AllBlank l
    · have hnot := not_infix_of_allBlank hblank
      rw [sidesOf_following_cons_of_allBlank hl hblank, List.flatMap_cons,
        sidesOf_line_of_noSeparator hl hnot, List.nil_append, ih hothers]
      exact ⟨fun h => ⟨fun hends => absurd hends (not_endsOpen_of_noSeparator hnot),
        fun hopens => absurd hopens (not_opens_of_allBlank hblank), fun _ _ _ => .inl hblank, h⟩,
        fun h => h.2.2.2⟩
    by_cases hopens : Opens l
    · rw [sidesOf_following_opens_iff hl hothers hopens (ih hothers)]
      exact ⟨fun h => ⟨h.1, fun _ => h.2.1, fun _ _ _ => .inr hopens, h.2.2⟩,
        fun h => ⟨h.1, h.2.1 hopens, h.2.2.2⟩⟩
    · have hdrop : dropText? defines (trimLeft (l ++ following rest)) = none := by
        rw [dropText?_trimLeft_append_following hblank, dropText?_eq_none_iff.2 hopens]
        rfl
      rw [sidesOf_following_cons_of_none l hdrop,
        sidesOf_visible_iff hl hothers hblank (ih hothers)]
      exact ⟨fun h => ⟨h.1, fun hl => absurd hl hopens, fun m hm hm' => absurd hm' (h.2.1 m hm),
        h.2.2⟩, fun h => ⟨h.1, fun m hm hm' => (h.2.2.1 m hm hm').elim hblank hopens, h.2.2.2⟩⟩

/-- The lines of a text are read each for itself exactly if they do not reach into one another. -/
theorem sidesOf_append_following_eq_iff :
    sidesOf (l ++ following rest) = (l :: rest).flatMap sidesOf ↔ StandApart (l :: rest) := by
  have ih := sidesOf_following_eq_iff hrest
  by_cases hblank : AllBlank l
  · have hnot := not_infix_of_allBlank hblank
    rw [sidesOf_append_following_of_allBlank hl hblank, List.flatMap_cons,
      sidesOf_line_of_noSeparator hl hnot, List.nil_append, ih]
    exact ⟨fun h => ⟨fun hends => absurd hends (not_endsOpen_of_noSeparator hnot),
      fun _ _ _ => hblank, h⟩, fun h => h.2.2⟩
  · rw [sidesOf_visible_iff hl hrest hblank ih]
    exact ⟨fun h => ⟨h.1, fun m hm hm' => absurd hm' (h.2.1 m hm), h.2.2⟩,
      fun h => ⟨h.1, fun m hm hm' => hblank (h.2.1 m hm hm'), h.2.2⟩⟩

end

/-! ## Grammars -/

theorem readDefinitions_eq_map (cs : List Char) :
    readDefinitions cs = (sidesOf cs).map fun d => (String.ofList d.1, readProduction d.2) := by
  rw [readDefinitions, sidesOf, List.map_map]
  rfl

/-- A line defines at most one production, and merging it in adds its definition. -/
theorem Grammar.merge_parse_line {line : List Char} (h : '\n' ∉ line) (g : Grammar) :
    g.merge (parse (String.ofList line)) = defineAll g (readDefinitions line) := by
  have hentries : (parse (String.ofList line)).entries = readDefinitions line := by
    rw [parse, String.toList_ofList, readDefinitions_eq_map, sidesOf_line h]
    cases splitLast defines line with
    | none => rfl
    | some p =>
      refine (entries_defineAll _).trans ?_
      simp [merged, List.eraseDups_cons]
  rw [merge, hentries]

/-- What is read line by line is defined one after the other. -/
theorem Grammar.parseLines_eq (text : String) :
    parseLines text =
      defineAll Table.empty ((splitChar '\n' text.toList).flatMap readDefinitions) := by
  have hlines : ∀ line ∈ splitChar '\n' text.toList, '\n' ∉ line :=
    fun line hline => (mem_splitChar hline).1
  rw [parseLines, List.foldl_map]
  generalize splitChar '\n' text.toList = lines at hlines
  generalize (Table.empty : Grammar) = g
  induction lines generalizing g with
  | nil => rfl
  | cons line lines ih =>
    rw [List.foldl_cons, ih (fun l hl => hlines l (List.mem_cons_of_mem _ hl)),
      merge_parse_line (hlines line List.mem_cons_self), List.flatMap_cons, defineAll, defineAll,
      defineAll, List.foldl_append]

/-- A text is read line by line exactly if its lines do not reach into one another, and then its
grammar is what its lines give, one after the other. -/
theorem readsByLine_iff (text : String) :
    (ReadsByLine text.toList ↔ StandApart (splitChar '\n' text.toList)) ∧
      (ReadsByLine text.toList → Grammar.parse text = Grammar.parseLines text) := by
  constructor
  · obtain ⟨l, rest, heq, hl, hrest⟩ := exists_following text.toList
    rw [ReadsByLine, heq, splitChar_append_following hl hrest]
    exact sidesOf_append_following_eq_iff hl hrest
  · intro h
    have hread : readDefinitions text.toList =
        (splitChar '\n' text.toList).flatMap readDefinitions := by
      rw [readDefinitions_eq_map, h, List.map_flatMap, funext readDefinitions_eq_map]
    rw [Grammar.parse, hread, Grammar.parseLines_eq]

/-- A line without a right-hand side in front of a row, and a line without a name behind a title. -/
def openText : String := "opt ::=\nr ::= x\nnotes\n::= y\n"

/-- The empty right-hand side takes the row, and the empty name takes the title. -/
theorem not_readsByLine_openText :
    ¬ ReadsByLine openText.toList ∧ Grammar.parse openText ≠ Grammar.parseLines openText := by
  refine ⟨fun h => absurd ((readsByLine_iff openText).1.1 h) (by decide +kernel), fun h => ?_⟩
  have hkeys := congrArg Table.keys h
  exact absurd hkeys (by decide +kernel)

end CqlGlue.Listing
