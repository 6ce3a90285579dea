import CqlGlue.Proofs.EditorGrammar.References
import CqlGlue.Proofs.Text.Lacks
import CqlGlue.Proofs.Text.Lowercase
import CqlGlue.Proofs.Text.Pieces
import Mathlib.Data.List.TakeWhile

/-!
# The names in a printed rule

What a printed rule refers to are the names behind `$.` in its text. A rule is printed from many
small texts, and where one of them ends, a character follows that neither continues a name nor is
the dot in front of one. So the names of a rule are those of the texts it is printed from.

## Main definitions
* `referencedNames` reads the names off a text.
* `SetOff` says that no name goes on in a text.

## Main statements
* `referencedNames_append` reads the names off two texts put together.
* `referencedNames_choiceText` reads them off the alternatives of a rule, and
  `referencedNames_wrap` off what is put around them.
* `referencedNames_phrase` and `referencedNames_keywordBody` say that rules of keywords refer to
  nothing.
-/

namespace CqlGlue.EditorGrammar

open Text

/-- The names behind `$.` in a text, each as long as characters of names follow. -/
def referencedNames : List Char → List (List Char)
  | '$' :: '.' :: cs => cs.takeWhile isNameChar :: referencedNames cs
  | _ :: cs => referencedNames cs
  | [] => []

/-- The text does not go on with a name or with the dot in front of one. -/
def SetOff (cs : List Char) : Prop := ∀ c ∈ cs.head?, isNameChar c = false ∧ c ≠ '.'

-- Decided on the one character: an instance for all characters would be tried first.
instance (cs : List Char) : Decidable (SetOff cs) :=
  decidable_of_iff (cs.head?.all (fun c => !isNameChar c && c != '.') = true) <| by
    cases cs <;> simp [SetOff]

variable {a b cs sep : List Char}

theorem SetOff.append (h : SetOff a) (hne : a ≠ []) (b : List Char) : SetOff (a ++ b) := by
  cases a with
  | nil => exact absurd rfl hne
  | cons c a => exact h

/-! ## Seams -/

theorem referencedNames_cons {c : Char} (h : c ≠ '$') (cs : List Char) :
    referencedNames (c :: cs) = referencedNames cs := by
  rw [referencedNames]
  rintro _ rfl
  exact absurd rfl h

theorem referencedNames_of_not_mem (h : '$' ∉ a) (b : List Char) :
    referencedNames (a ++ b) = referencedNames b := by
  induction a with
  | nil => rfl
  | cons c a ih =>
    rw [List.mem_cons, not_or] at h
    rw [List.cons_append, referencedNames_cons (Ne.symm h.1), ih h.2]

theorem referencedNames_eq_nil (h : '$' ∉ cs) : referencedNames cs = [] := by
  have := referencedNames_of_not_mem h []
  rwa [List.append_nil] at this

theorem takeWhile_append_of_setOff (cs : List Char) (h : SetOff b) :
    (cs ++ b).takeWhile isNameChar = cs.takeWhile isNameChar := by
  have hstop : b.takeWhile isNameChar = [] := by
    cases b with
    | nil => rfl
    | cons c b =>
      rw [List.takeWhile_cons, (h c rfl).1]
      rfl
  rw [List.takeWhile_append, hstop, List.append_nil]
  split
  · rename_i hlength
    exact ((List.takeWhile_prefix _).eq_of_length hlength).symm
  · rfl

/-- A name ends where the text behind it is set off, and so does what `$` could begin. -/
theorem referencedNames_append (a : List Char) (h : SetOff b) :
    referencedNames (a ++ b) = referencedNames a ++ referencedNames b := by
  induction a using referencedNames.induct with
  | case1 cs ih =>
    rw [List.cons_append, List.cons_append, referencedNames, referencedNames,
      takeWhile_append_of_setOff cs h, ih, List.cons_append]
  | case2 c cs hother ih =>
    have hother' : ∀ rest, c = '$' → cs ++ b = '.' :: rest → False := by
      intro rest hc hrest
      cases cs with
      | nil => exact (h '.' (by rw [List.nil_append] at hrest; rw [hrest]; rfl)).2 rfl
      | cons d cs =>
        cases hrest
        exact hother cs hc rfl
    rw [List.cons_append, referencedNames.eq_2 _ _ hother', referencedNames.eq_2 _ _ hother, ih]
  | case3 => rfl

/-- The names of texts with separators between them and a text behind them. -/
theorem referencedNames_intercalate (hsep : SetOff sep) (hne : sep ≠ []) (hdollar : '$' ∉ sep)
    (parts : List (List Char)) (hb : SetOff b) :
    referencedNames (sep.intercalate parts ++ b) =
      parts.flatMap referencedNames ++ referencedNames b := by
  induction parts with
  | nil => rfl
  | cons part parts ih =>
    cases parts with
    | nil => rw [List.intercalate_singleton, referencedNames_append part hb,
        List.flatMap_singleton]
    | cons part' parts =>
      rw [List.intercalate_cons_cons, List.append_assoc, List.append_assoc,
        referencedNames_append part (hsep.append hne _), referencedNames_of_not_mem hdollar, ih,
        ← List.append_assoc]
      rfl

/-! ## Texts of a rule -/

/-- A name made of characters of names is read whole. -/
theorem referencedNames_reference {name : List Char} (h : ∀ c ∈ name, isNameChar c = true) :
    referencedNames ('$' :: '.' :: name) = [name] := by
  have hdollar : '$' ∉ name := fun hmem => absurd (h '$' hmem) (by decide)
  rw [referencedNames, referencedNames_eq_nil hdollar,
    List.takeWhile_eq_self_iff.2 h]

/-- A symbol that refers to a name has this name in its text and no other. -/
theorem referencedNames_of_referred {s : Symbol} {name : String} (h : s.referred? = some name)
    (hname : ∀ c ∈ name.toList, isNameChar c = true) :
    referencedNames s.text.toList = [name.toList] := by
  have hreference : referencedNames ("$." ++ name).toList = [name.toList] := by
    rw [String.toList_append]
    exact referencedNames_reference hname
  rcases Symbol.text_of_referred? h with htext | htext
  · rw [htext, hreference]
  · have hopen : "optional($." = "optional(" ++ "$." := by decide
    have hclosing : SetOff ")".toList ∧ referencedNames ")".toList = [] := by decide
    rw [htext, hopen, String.append_assoc, String.append_assoc, String.toList_append,
      referencedNames_of_not_mem (by decide), ← String.append_assoc, String.toList_append,
      referencedNames_append _ hclosing.1, hreference, hclosing.2, List.append_nil]

/-- The names in the text of a function applied to some texts. -/
theorem referencedNames_call {opening separator : String} (hopening : '$' ∉ opening.toList)
    (hsep : SetOff separator.toList) (hne : separator.toList ≠ [])
    (hdollar : '$' ∉ separator.toList) (texts : List String) :
    referencedNames (opening ++ String.intercalate separator texts ++ ")").toList =
      texts.flatMap fun text => referencedNames text.toList := by
  have hclosing : SetOff ")".toList ∧ referencedNames ")".toList = [] := by decide
  rw [String.toList_append, String.toList_append, List.append_assoc,
    referencedNames_of_not_mem hopening, String.toList_intercalate,
    referencedNames_intercalate hsep hne hdollar _ hclosing.1, hclosing.2, List.append_nil,
    List.flatMap_map]

theorem referencedNames_alternativeText (symbols : List Symbol) :
    referencedNames (alternativeText symbols).toList =
      symbols.flatMap fun s => referencedNames s.text.toList := by
  have hcall : ∀ texts : List String,
      referencedNames ("seq(" ++ String.intercalate ", " texts ++ ")").toList =
        texts.flatMap fun text => referencedNames text.toList :=
    referencedNames_call (by decide) (by decide) (by decide) (by decide)
  rcases symbols with _ | ⟨s, _ | ⟨s', symbols⟩⟩
  · exact hcall []
  · rw [List.flatMap_singleton]
    rfl
  · rw [← List.flatMap_map Symbol.text fun text => referencedNames text.toList]
    exact hcall _

/-- The names in the alternatives of a rule are those of its symbols. -/
theorem referencedNames_choiceText (alternatives : List (List Symbol)) (lineBreaks : Bool) :
    referencedNames (choiceText alternatives lineBreaks).toList =
      alternatives.flatten.flatMap fun s => referencedNames s.text.toList := by
  have hcall : ∀ texts : List String,
      referencedNames ("choice(" ++
        String.intercalate (if lineBreaks then ",\n      " else ", ") texts ++ ")").toList =
        texts.flatMap fun text => referencedNames text.toList := by
    cases lineBreaks with
    | true => exact referencedNames_call (by decide) (by decide) (by decide) (by decide)
    | false => exact referencedNames_call (by decide) (by decide) (by decide) (by decide)
  have hall : ∀ all : List (List Symbol),
      (all.map alternativeText).flatMap (fun text => referencedNames text.toList) =
        all.flatten.flatMap fun s => referencedNames s.text.toList := by
    intro all
    rw [List.flatMap_map, List.flatten_eq_flatMap, List.flatMap_assoc]
    exact List.flatMap_congr fun symbols _ => referencedNames_alternativeText symbols
  rcases alternatives with _ | ⟨a, _ | ⟨a', alternatives⟩⟩
  · exact hcall []
  · rw [← hall, List.map_singleton, List.flatMap_singleton]
    rfl
  · rw [← hall]
    exact hcall _

/-- The arrow in front of a body belongs to no name. -/
theorem referencedNames_arrow (text : String) :
    referencedNames ("$ => " ++ text).toList = referencedNames text.toList := by
  rw [String.toList_append]
  rfl

/-- A keyword in either case refers to nothing. -/
theorem not_mem_caseless {word : String} (h : '$' ∉ word.toList) :
    '$' ∉ (caseless word).toList := by
  have hlower : '$' ∉ (lowercase word).toList := fun hmem =>
    h (mem_of_mem_lowercase hmem (by decide) (by decide))
  simp [caseless, hlower]

theorem referencedNames_phrase {words : List String} (h : ∀ word ∈ words, '$' ∉ word.toList) :
    referencedNames (RuleBody.phrase words).text.toList = [] := by
  have hopen : "$ => prec.left(1, seq(" = "$ => " ++ "prec.left(1, seq(" := by decide
  have hwords : Lacks ['$'] (String.intercalate ", " (words.map caseless)) := by
    refine lacks_intercalate (by decide) fun text htext => ?_
    obtain ⟨word, hword, rfl⟩ := List.mem_map.1 htext
    intro c hc hdollar
    rw [List.mem_singleton.1 hdollar] at hc
    exact not_mem_caseless (h word hword) hc
  change referencedNames ("$ => prec.left(1, seq(" ++
    String.intercalate ", " (words.map caseless) ++ "))").toList = []
  rw [hopen, String.append_assoc, String.append_assoc, referencedNames_arrow,
    referencedNames_eq_nil]
  have hopening : Lacks ['$'] "prec.left(1, seq(" ∧ Lacks ['$'] "))" := by decide
  exact (lacks_append.2 ⟨hopening.1, lacks_append.2 ⟨hwords, hopening.2⟩⟩).not_mem
    List.mem_cons_self

theorem referencedNames_keywordBody {word : String} (h : '$' ∉ word.toList) :
    referencedNames (keywordBody word).toList = [] := by
  rw [keywordBody, referencedNames_arrow, referencedNames_eq_nil (not_mem_caseless h)]

/-- The names in a wrapped body are those of the body and those in front of it and behind it, where
the braces are set off. -/
theorem referencedNames_wrap {w : String} {before after : List Char} {c : Char}
    (hw : splitFirst ['\x7b', '\x7d'] w.toList = some (before ++ [c], after))
    (hc : SetOff [c]) (hdollar : c ≠ '$') (hafter : SetOff after) (body : String) :
    referencedNames (wrap (some w) body).toList =
      referencedNames before ++ referencedNames body.toList ++ referencedNames after := by
  rw [wrap, String.toList_ofList, replaceFirst, hw]
  dsimp only
  rw [referencedNames_append _ hafter, List.append_assoc before,
    referencedNames_append before (hc.append (List.cons_ne_nil _ _) _), List.singleton_append,
    referencedNames_cons hdollar]

end CqlGlue.EditorGrammar
