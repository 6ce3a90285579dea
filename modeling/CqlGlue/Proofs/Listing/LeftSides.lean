import CqlGlue.Proofs.Listing.KeptLines

/-!
# Left-hand sides of the lines that come out

No word that has a definition holds the separator, and within the separator there is no word
boundary. So words are substituted on both sides of a separator, each side for itself, and the
left-hand side that comes out depends on the left-hand side alone. It can change where the
right-hand side mentions a word, because then the words are substituted in the whole line.

## Main definitions
* `leftSide?` is what stands in front of the separator of a line.
* `LeavesLeft` says that the words change no left-hand side where they are substituted.

## Main statements
* `replaceWord_defines` and `putWords_defines` substitute on both sides of a separator.
* `map_leftSide?_eq_iff` says when inlining leaves the left-hand sides alone.
-/

namespace CqlGlue.Listing

open Text Inliner

variable {word body : List Char} {before : Option Char}

/-! ## One word -/

/-- Between two characters that are no word characters there is no boundary. -/
theorem wordAt_some_cons {d e : Char} (hd : isWordChar d = false) (he : isWordChar e = false)
    (cs : List Char) : wordAt word (some d) (e :: cs) = false := by
  have hboundary : isBoundary (some d) (e :: cs).head? = false := by
    rw [isBoundary, List.head?_cons, Option.any_some, Option.any_some, hd, he]
    rfl
  rw [wordAt]
  split
  · rw [hboundary, Bool.false_and]
  · rfl

/-- A word that ends within the separator does not end at a boundary. -/
theorem isBoundary_within_defines {a u rest c : List Char} (hword : word = a ++ u) (hu : u ≠ [])
    (hdefines : ¬ defines <:+: word) (hrest : defines ++ c = u ++ rest) :
    isBoundary word.getLast? rest.head? = false := by
  rcases u with _ | ⟨d, _ | ⟨e, _ | ⟨f, u⟩⟩⟩
  · exact absurd rfl hu
  · cases hrest
    have hcolons : isBoundary (some ':') (some ':') = false := by decide
    rw [hword, List.getLast?_concat]
    exact hcolons
  · cases hrest
    have hequals : isBoundary (some ':') (some '=') = false := by decide
    rw [hword, List.getLast?_append]
    exact hequals
  · cases hrest
    exact absurd ⟨a, u, by rw [hword, List.append_assoc]; rfl⟩ hdefines

variable (hne : word ≠ []) (hdefines : ¬ defines <:+: word)
include hne hdefines

/-- A word that stands in front of a separator does not reach into it. -/
theorem wordAt_defines (before : Option Char) (a c : List Char) :
    wordAt word before (a ++ (defines ++ c)) = wordAt word before a := by
  cases hdrop : dropText? word a with
  | some rest =>
    have hend : ∀ last, isBoundary last (defines ++ c).head? = isBoundary last none :=
      isBoundary_some_right (by decide)
    exact wordAt_append hne hdrop hend before
  | none =>
    rw [wordAt, wordAt, hdrop]
    cases hdrop' : dropText? word (a ++ (defines ++ c)) with
    | none => rfl
    | some rest =>
      rcases List.append_eq_append_iff.1 (dropText?_eq_some_iff.1 hdrop') with
        ⟨u, hword, hrest⟩ | ⟨u, ha, -⟩
      · have hu : u ≠ [] := by
          rintro rfl
          rw [List.append_nil] at hword
          exact dropText?_eq_none_iff.1 hdrop ⟨[], by rw [hword, List.append_nil]⟩
        dsimp only
        rw [isBoundary_within_defines hword hu hdefines hrest, Bool.and_false]
      · exact absurd ⟨u, ha.symm⟩ (dropText?_eq_none_iff.1 hdrop)

/-- A word is substituted on both sides of a separator. -/
theorem replaceWord_defines (a c : List Char) :
    replaceWord word body (a ++ (defines ++ c)) =
      replaceWord word body a ++ (defines ++ replaceWord word body c) := by
  refine replaceWordAfter_append (fun before a => wordAt_defines hne hdefines before a c) ?_
    (Nat.zero_le _)
  intro before
  have hat : wordAt word before (':' :: ':' :: '=' :: c) = false :=
    (wordAt_defines hne hdefines before [] c).trans (wordAt_nil hne before)
  have hcolon : wordAt word (some ':') (':' :: '=' :: c) = false :=
    wordAt_some_cons (by decide) (by decide) _
  have hequals : wordAt word (some ':') ('=' :: c) = false :=
    wordAt_some_cons (by decide) (by decide) _
  change replaceWordAfter word body 0 before (':' :: ':' :: '=' :: c) =
    ':' :: ':' :: '=' :: replaceWord word body c
  simp only [replaceWordAfter, hat, hcolon, hequals, Bool.false_eq_true, if_false]
  rw [replaceWordAfter_some (by decide)]

omit hne hdefines

/-! ## Several words -/

variable {words lines : List (List Char)} {line : List Char}

theorem putWords_defines {body? : List Char → Option (List Char)} (hne : ∀ w ∈ words, w ≠ [])
    (hdefines : ∀ w body, body? w = some body → ¬ defines <:+: w) (a c : List Char) :
    putWords body? words (a ++ (defines ++ c)) =
      putWords body? words a ++ (defines ++ putWords body? words c) := by
  induction words generalizing a c with
  | nil => rfl
  | cons w words ih =>
    have hw : putWord body? (a ++ (defines ++ c)) w =
        putWord body? a w ++ (defines ++ putWord body? c w) := by
      cases hbody : body? w with
      | none => simp only [putWord_of_none hbody]
      | some body =>
        simp only [putWord_of_some hbody]
        exact replaceWord_defines (hne w List.mem_cons_self) (hdefines w body hbody) a c
    simp only [putWords, List.foldl_cons, hw]
    exact ih (fun v hv => hne v (List.mem_cons_of_mem _ hv)) _ _

/-- A word that is defined stands in front of the first separator of a line. -/
theorem not_infix_of_bodyOf? {w : List Char} (h : bodyOf? lines w = some body) :
    ¬ defines <:+: w := by
  obtain ⟨l, -, hsplit⟩ := exists_line_of_bodyOf? h
  obtain ⟨⟨left, right⟩, hcut, heq⟩ := Option.map_eq_some_iff.1 hsplit
  obtain rfl : trim left = w := congrArg Prod.fst heq
  obtain ⟨front, back, -, -, htrim⟩ := exists_blank_trim_blank left
  exact fun hwithin => not_infix_of_splitFirst (List.cons_ne_nil _ _) hcut
    (hwithin.trans ⟨front, back, htrim.symm⟩)

/-! ## Left-hand sides -/

/-- What stands in front of the first separator of a line. -/
def leftSide? (line : List Char) : Option (List Char) := (splitLine line).map Prod.fst

/-- What stands behind a separator does not count. -/
theorem leftSide?_defines (a c : List Char) :
    leftSide? (a ++ (defines ++ c)) = leftSide? (a ++ defines) := by
  cases hcut : splitFirst defines (a ++ defines) with
  | none => exact absurd (List.suffix_append a defines).isInfix (splitFirst_eq_none_iff.1 hcut)
  | some p =>
    obtain ⟨left, right⟩ := p
    rw [← List.append_assoc, leftSide?, leftSide?, splitLine, splitLine, splitFirst_append hcut,
      hcut]
    rfl

/-- The left-hand side of a line in which the words are substituted. -/
theorem leftSide?_putWords (hne : ∀ w ∈ words, w ≠ []) {p : List Char × List Char}
    (hcut : splitFirst defines line = some p) :
    leftSide? (putWords (bodyOf? lines) words line) =
      leftSide? (putWords (bodyOf? lines) words p.1 ++ defines) := by
  rw [eq_append_of_splitFirst hcut, List.append_assoc,
    putWords_defines hne fun _ _ => not_infix_of_bodyOf?, leftSide?_defines]

/-- What becomes of a line keeps the left-hand side where the right-hand side mentions no word or
the words leave the left-hand side alone. -/
theorem leftSide?_substituted_eq_iff (hne : ∀ w ∈ words, w ≠ []) {p : List Char × List Char}
    (hcut : splitFirst defines line = some p) :
    leftSide? (substituted words lines line) = leftSide? line ↔
      ((∃ w ∈ words, hasWord w (trim p.2) = true) →
        leftSide? (putWords (bodyOf? lines) words p.1 ++ defines) = leftSide? line) := by
  have hsplit : splitLine line = some (trim p.1, trim p.2) := by rw [splitLine, hcut]; rfl
  rw [substituted, hsplit, Option.any_some, ← List.any_eq_true]
  split
  · rename_i hany
    rw [leftSide?_putWords hne hcut, imp_iff_right hany]
  · rename_i hany
    exact iff_of_true rfl fun h => absurd h hany

theorem ne_nil_of_mem_ofWords {words : List String} : ∀ w ∈ (ofWords words).words, w ≠ [] := by
  intro w hw
  have hempty := (List.mem_filter.1 hw).2
  rintro rfl
  cases hempty

/-- In every line that is kept and whose right-hand side mentions a word, the words leave the
left-hand side as it is. -/
def LeavesLeft (words lines : List (List Char)) : Prop :=
  ∀ line ∈ keptLines words lines, ∀ p ∈ splitFirst defines line,
    (∃ w ∈ words, hasWord w (trim p.2) = true) →
      leftSide? (putWords (bodyOf? lines) words p.1 ++ defines) = leftSide? line

instance (words lines : List (List Char)) : Decidable (LeavesLeft words lines) :=
  inferInstanceAs (Decidable (∀ line ∈ keptLines words lines, ∀ p ∈ splitFirst defines line,
    (∃ w ∈ words, hasWord w (trim p.2) = true) →
      leftSide? (putWords (bodyOf? lines) words p.1 ++ defines) = leftSide? line))

theorem FreeLeft.leavesLeft (h : FreeLeft words lines) : LeavesLeft words lines := by
  intro line hline p hp _
  rw [putWords_eq_self (h line hline p hp), ← leftSide?_defines p.1 p.2, ← List.append_assoc,
    ← eq_append_of_splitFirst hp]

theorem leavesLeft_iff (hne : ∀ w ∈ words, w ≠ []) :
    LeavesLeft words lines ↔
      ∀ line ∈ keptLines words lines,
        leftSide? (substituted words lines line) = leftSide? line := by
  refine forall₂_congr fun line hline => ?_
  obtain ⟨-, key, value, hsplit, -⟩ := mem_keptLines.1 hline
  obtain ⟨p, hcut, -⟩ := Option.map_eq_some_iff.1 hsplit
  rw [leftSide?_substituted_eq_iff hne hcut, hcut]
  simp only [Option.mem_some_iff, forall_eq']

/-- Inlining leaves the left-hand sides alone exactly where the words do so in every line whose
right-hand side mentions one of them; so it does where no left-hand side has a word in it. -/
theorem map_leftSide?_eq_iff (words : List String) (text out : String)
    (h : ((ofWords words).run text).value = .ok out) :
    ((outputLines out).map leftSide? =
        (keptLines (ofWords words).words (linesOf text.toList)).map leftSide? ↔
      LeavesLeft (ofWords words).words (linesOf text.toList)) ∧
    (FreeLeft (ofWords words).words (linesOf text.toList) →
      (outputLines out).map leftSide? =
        (keptLines (ofWords words).words (linesOf text.toList)).map leftSide?) := by
  have hkeeps : (outputLines out).map leftSide? =
      (keptLines (ofWords words).words (linesOf text.toList)).map leftSide? ↔
        LeavesLeft (ofWords words).words (linesOf text.toList) := by
    rw [leavesLeft_iff ne_nil_of_mem_ofWords, outputLines_of_run h, List.map_map,
      List.map_inj_left]
    rfl
  exact ⟨hkeeps, fun hfree => hkeeps.2 hfree.leavesLeft⟩

/-- A name that holds a word between two hyphens does not come out as it was. -/
theorem not_map_leftSide?_eq_literal :
    ((ofWords ["literal"]).run
        "literal ::= INT\nc-string-literal ::= literal | C_STR\n").value =
      .ok "c-string-INT ::= INT | C_STR\n" ∧
    (outputLines "c-string-INT ::= INT | C_STR\n").map leftSide? ≠
      (keptLines (ofWords ["literal"]).words
        (linesOf "literal ::= INT\nc-string-literal ::= literal | C_STR\n".toList)).map leftSide? :=
  ⟨by decide, fun heq => absurd ((map_leftSide?_eq_iff ["literal"]
    "literal ::= INT\nc-string-literal ::= literal | C_STR\n" "c-string-INT ::= INT | C_STR\n"
    (by decide)).1.1 heq) (by decide)⟩

end CqlGlue.Listing
