import CqlGlue.Proofs.Listing.Tokens
import CqlGlue.Proofs.Text.Pieces

/-!
# Reading back alternatives

A right-hand side put together from alternatives, with bars between them, is read as these
alternatives, and an alternative put together from tokens, with spaces between them, is read as
these tokens. Blanks at the end of the line change nothing.

## Main definitions
* `IsToken` are the tokens that are read back, `IsPiece` the texts that are not cut.
* `Piece` is an alternative: tokens, or a comment that stands for the empty word.
* `readPiece` reads an alternative.

## Main statements
* `readProduction_eq` says that a production is read alternative by alternative.
* `map_readPiece_alternatives` reads back alternatives.
-/

namespace CqlGlue.Listing

open Text

/-! ## Texts that are not cut -/

/-- Whether a bar stands somewhere with blanks next to it on both sides. -/
def holdsBar : List Char → Bool
  | a :: b :: c :: cs => (isBlank a && b == '|' && isBlank c) || holdsBar (b :: c :: cs)
  | _ => false

instance (cs : List Char) : Decidable (defines <:+: cs) :=
  decidable_of_iff (splitLast defines cs ≠ none) <| by
    rw [Ne, splitLast_eq_none_iff, Classical.not_not]

/-- A text on a single line that is not cut at a bar, not even with spaces around it. -/
structure IsPiece (cs : List Char) : Prop where
  solid : Solid cs
  first : cs.head? ≠ some '|'
  final : cs.getLast? ≠ some '|'
  bar : holdsBar cs = false
  line : '\n' ∉ cs
  separator : ¬ defines <:+: cs

instance (cs : List Char) : Decidable (IsPiece cs) :=
  decidable_of_iff (Solid cs ∧ cs.head? ≠ some '|' ∧ cs.getLast? ≠ some '|' ∧
      holdsBar cs = false ∧ '\n' ∉ cs ∧ ¬ defines <:+: cs)
    ⟨fun h => ⟨h.1, h.2.1, h.2.2.1, h.2.2.2.1, h.2.2.2.2.1, h.2.2.2.2.2⟩,
      fun h => ⟨h.solid, h.first, h.final, h.bar, h.line, h.separator⟩⟩

/-- A token that is read as itself. -/
structure IsToken (t : List Char) : Prop where
  token : token? t = some t
  bar : holdsBar t = false
  line : '\n' ∉ t
  separator : ¬ defines <:+: t

instance (t : List Char) : Decidable (IsToken t) :=
  decidable_of_iff (token? t = some t ∧ holdsBar t = false ∧ '\n' ∉ t ∧ ¬ defines <:+: t)
    ⟨fun h => ⟨h.1, h.2.1, h.2.2.1, h.2.2.2⟩,
      fun h => ⟨h.token, h.bar, h.line, h.separator⟩⟩

theorem holdsBar_blank_append {c d : Char} {blanks cs : List Char} (hc : isBlank c = true)
    (hblanks : AllBlank blanks) (hd : isBlank d = true) :
    holdsBar (c :: (blanks ++ '|' :: d :: cs)) = true := by
  induction blanks generalizing c with
  | nil =>
    rw [List.nil_append, holdsBar, hc, hd]
    rfl
  | cons b blanks ih =>
    have hrest := ih (hblanks b List.mem_cons_self) fun c hc =>
      hblanks c (List.mem_cons_of_mem _ hc)
    cases blanks with
    | nil =>
      rw [List.nil_append] at hrest
      rw [List.cons_append, List.nil_append, holdsBar, hrest, Bool.or_true]
    | cons b' blanks =>
      rw [List.cons_append] at hrest
      rw [List.cons_append, List.cons_append, holdsBar, hrest, Bool.or_true]

theorem holdsBar_append_space {a b : List Char} (ha : holdsBar a = false)
    (hlast : a.getLast? ≠ some '|') (hb : holdsBar b = false) (hfirst : b.head? ≠ some '|') :
    holdsBar (a ++ ' ' :: b) = false := by
  induction a with
  | nil =>
    rcases b with _ | ⟨x, _ | ⟨y, b⟩⟩
    · rfl
    · rfl
    · have hx : (x == '|') = false := beq_eq_false_iff_ne.2 fun hx => hfirst (by rw [hx]; rfl)
      rw [List.nil_append, holdsBar, hx, hb, Bool.and_false, Bool.false_and]
      rfl
  | cons x a ih =>
    rcases a with _ | ⟨y, _ | ⟨z, a⟩⟩
    · have hrest : holdsBar ([] ++ ' ' :: b) = false := ih rfl (by simp)
      cases b with
      | nil => rfl
      | cons y b =>
        rw [List.nil_append] at hrest
        have hspace : (' ' == '|') = false := by decide
        rw [List.cons_append, List.nil_append, holdsBar, hrest, hspace, Bool.and_false,
          Bool.false_and]
        rfl
    · have hy : (y == '|') = false := beq_eq_false_iff_ne.2 fun hy => hlast (by rw [hy]; rfl)
      have hrest : holdsBar ([y] ++ ' ' :: b) = false := ih rfl (by simpa using hlast)
      rw [List.cons_append, List.nil_append] at hrest
      rw [List.cons_append, List.cons_append, List.nil_append, holdsBar, hrest, hy,
        Bool.and_false, Bool.false_and]
      rfl
    · rw [holdsBar, Bool.or_eq_false_iff] at ha
      have hrest := ih ha.2 (by simpa using hlast)
      rw [List.cons_append, List.cons_append] at hrest
      rw [List.cons_append, List.cons_append, List.cons_append, holdsBar, ha.1, hrest]
      rfl

/-- Two such texts with a space between them are one. -/
theorem IsPiece.append_space {a b : List Char} (ha : IsPiece a) (hb : IsPiece b) :
    IsPiece (a ++ [' '] ++ b) where
  solid := ha.solid.append _ hb.solid
  first := by
    cases a with
    | nil => exact absurd rfl ha.solid.ne_nil
    | cons c a => exact ha.first
  final := by
    have hlast := List.getLast?_eq_some_getLast hb.solid.ne_nil
    rw [List.getLast?_append, hlast, Option.some_or, ← hlast]
    exact hb.final
  bar := by
    rw [List.append_assoc]
    exact holdsBar_append_space ha.bar ha.final hb.bar hb.first
  line h := by
    rcases List.mem_append.1 h with h | h
    · rcases List.mem_append.1 h with h | h
      · exact ha.line h
      · exact absurd h (by decide)
    · exact hb.line h
  separator h := by
    rw [List.append_assoc] at h
    rcases infix_append_cons (by decide) h with h | h
    · exact ha.separator h
    · exact hb.separator h

/-! ## Bars -/

theorem alternatives_nil : alternatives [] = [[]] := by
  unfold alternatives
  rfl

theorem alternatives_cons_none {c : Char} {cs piece : List Char} {pieces : List (List Char)}
    (h : (if isBlank c then afterBar? cs else none) = none)
    (hrest : alternatives cs = piece :: pieces) :
    alternatives (c :: cs) = (c :: piece) :: pieces := by
  -- The equation for one case is dear to derive; unfolding is not.
  unfold alternatives
  split
  · rename_i hsome
    exact absurd (h.symm.trans hsome) (by simp)
  · rw [hrest]

theorem alternatives_cons_some {c : Char} {cs rest : List Char}
    (h : (if isBlank c then afterBar? cs else none) = some rest) :
    alternatives (c :: cs) = [] :: alternatives rest := by
  conv => lhs; unfold alternatives
  split
  · rename_i hsome
    cases h.symm.trans hsome
    rfl
  · rename_i hnone
    exact absurd (h.symm.trans hnone) (by simp)

/-- Within a text that is not cut there is no bar to cut at. -/
theorem afterBar?_append {c : Char} {p rest : List Char} (hc : isBlank c = true)
    (hlast : ∀ d ∈ (c :: p).getLast?, isBlank d = false ∧ d ≠ '|')
    (hbar : holdsBar (c :: p) = false) : afterBar? (p ++ rest) = none := by
  obtain ⟨blanks, hblanks, hp⟩ := exists_blank_append p
  have htrim : trimLeft p ≠ [] := by
    intro hnil
    rw [hnil, List.append_nil] at hp
    have hall : AllBlank (c :: p) := by
      rw [hp]
      exact List.forall_mem_cons.2 ⟨hc, hblanks⟩
    have hmem := List.getLast_mem (List.cons_ne_nil c p)
    have := (hlast _ (List.getLast?_eq_some_getLast (List.cons_ne_nil c p))).1
    rw [hall _ hmem] at this
    cases this
  rw [afterBar?, trimLeft_append_of_ne_nil htrim]
  split
  · rename_i d ds hd
    rw [if_neg]
    intro hblank
    cases hshape : trimLeft p with
    | nil => exact htrim hshape
    | cons x xs =>
      rw [hshape, List.cons_append] at hd
      obtain rfl : x = '|' := (List.cons.inj hd).1
      rw [hshape] at hp
      cases xs with
      | nil =>
        have hbarLast : (c :: p).getLast? = some '|' := by
          rw [hp, ← List.cons_append, List.getLast?_append]
          rfl
        exact (hlast '|' hbarLast).2 rfl
      | cons y ys =>
        obtain rfl : y = d := (List.cons.inj (List.cons.inj hd).2).1
        rw [hp, holdsBar_blank_append hc hblanks hblank] at hbar
        cases hbar
  · rfl

/-- The text of a piece goes on before what follows it. -/
theorem alternatives_append {p rest piece : List Char} {pieces : List (List Char)}
    (hlast : ∀ c ∈ p.getLast?, isBlank c = false ∧ c ≠ '|') (hbar : holdsBar p = false)
    (hrest : alternatives rest = piece :: pieces) :
    alternatives (p ++ rest) = (p ++ piece) :: pieces := by
  induction p with
  | nil => exact hrest
  | cons c p ih =>
    have hnone : (if isBlank c then afterBar? (p ++ rest) else none) = none := by
      split
      · rename_i hc
        exact afterBar?_append hc hlast hbar
      · rfl
    refine alternatives_cons_none hnone (ih ?_ ?_)
    · intro d hd
      apply hlast d
      cases p with
      | nil => cases hd
      | cons e p => rwa [List.getLast?_cons_cons]
    · rcases p with _ | ⟨d, _ | ⟨e, p⟩⟩
      · rfl
      · rfl
      · rw [holdsBar, Bool.or_eq_false_iff] at hbar
        exact hbar.2

theorem IsPiece.alternatives_append {p rest piece : List Char} {pieces : List (List Char)}
    (h : IsPiece p) (hrest : alternatives rest = piece :: pieces) :
    alternatives (p ++ rest) = (p ++ piece) :: pieces := by
  refine Listing.alternatives_append (fun c hc => ⟨h.solid.last c hc, ?_⟩) h.bar hrest
  rintro rfl
  exact h.final hc

theorem alternatives_of_allBlank {blanks : List Char} (h : AllBlank blanks) :
    alternatives blanks = [blanks] := by
  induction blanks with
  | nil => exact alternatives_nil
  | cons c blanks ih =>
    have hrest : AllBlank blanks := fun c hc => h c (List.mem_cons_of_mem _ hc)
    refine alternatives_cons_none ?_ (ih hrest)
    rw [if_pos (h c List.mem_cons_self), afterBar?, trimLeft_of_allBlank hrest]

theorem alternatives_bar {cs : List Char} (h : trimLeft cs = cs) :
    alternatives (' ' :: '|' :: ' ' :: cs) = [] :: alternatives cs := by
  apply alternatives_cons_some
  have hbar : isBlank '|' = false := by decide
  have htrim : trimLeft ('|' :: ' ' :: cs) = '|' :: ' ' :: cs := by
    rw [trimLeft, List.dropWhile_cons, hbar]
    rfl
  have hspace : isBlank ' ' = true := by decide
  rw [if_pos hspace, afterBar?, htrim]
  change (if isBlank ' ' then some (trimLeft cs) else none) = some cs
  rw [if_pos hspace, h]

/-! ## Spaces -/

theorem token?_double {body : List Char} (hne : body ≠ []) (hquote : '"' ∉ body)
    (rest : List Char) :
    token? ('"' :: (body ++ '"' :: rest)) = some ('"' :: (body ++ ['"'])) := by
  have hbody : ∀ c ∈ body, (c != '"') = true := by
    intro c hc
    rw [bne_iff_ne]
    rintro rfl
    exact hquote hc
  have htake : (body ++ '"' :: rest).takeWhile (· != '"') = body := by
    rw [List.takeWhile_append_of_pos hbody, List.takeWhile_cons, if_neg (by simp),
      List.append_nil]
  have hdrop : (body ++ '"' :: rest).dropWhile (· != '"') = '"' :: rest := by
    rw [List.dropWhile_append_of_pos hbody, List.dropWhile_cons, if_neg (by simp)]
  simp only [token?, htake, hdrop]
  rw [if_neg]
  simp [hne]

/-- Without a quote in front there is a run of bare characters or no token. -/
theorem token?_cons_of_ne {c : Char} (hdouble : c ≠ '"') (hsingle : c ≠ '\'') (rest : List Char) :
    token? (c :: rest) = if isBareChar c then some (c :: rest.takeWhile isBareChar) else none := by
  unfold token?
  split
  · simp_all
  · simp_all
  · simp_all
  · simp_all
  · rename_i heq
    obtain ⟨rfl, rfl⟩ := List.cons.inj heq
    rfl

theorem token?_bare {c : Char} (hc : isBareChar c = true) (rest : List Char) :
    token? (c :: rest) = some (c :: rest.takeWhile isBareChar) := by
  have hdouble : c ≠ '"' := by
    rintro rfl
    exact absurd hc (by decide)
  have hsingle : c ≠ '\'' := by
    rintro rfl
    exact absurd hc (by decide)
  rw [token?_cons_of_ne hdouble hsingle, if_pos hc]

/-- A token is read as itself when a blank comes after it. -/
theorem token?_append_blank {t : List Char} (h : token? t = some t) {c : Char}
    (hc : isBlank c = true) (rest : List Char) : token? (t ++ c :: rest) = some t := by
  cases shape_of_token? h with
  | @double body hne hquote =>
    rw [List.cons_append, List.append_assoc]
    exact token?_double hne hquote _
  | single d =>
    have hd : d ≠ '\n' := by
      rintro rfl
      exact absurd h (by decide)
    exact if_neg hd
  | pair =>
    have hquote : c ≠ '\'' := by
      rintro rfl
      exact absurd hc (by decide)
    change token? ('\'' :: '\'' :: c :: rest) = _
    unfold token?
    split
    · simp_all
    · simp_all
    · simp_all
    · rfl
    · rename_i hpair heq
      cases heq
      exact absurd rfl (hpair _ rfl)
  | bare hne hbare =>
    have hstop := isBareChar_of_isBlank hc
    cases t with
    | nil => exact absurd rfl hne
    | cons d t =>
      have ht : ∀ e ∈ t, isBareChar e = true := fun e he => hbare e (List.mem_cons_of_mem _ he)
      rw [List.cons_append, token?_bare (hbare d List.mem_cons_self),
        List.takeWhile_append_of_pos ht, List.takeWhile_cons, hstop, if_neg Bool.false_ne_true,
        List.append_nil]

theorem token?_blank {c : Char} (hc : isBlank c = true) (rest : List Char) :
    token? (c :: rest) = none := by
  have hdouble : c ≠ '"' := by
    rintro rfl
    exact absurd hc (by decide)
  have hsingle : c ≠ '\'' := by
    rintro rfl
    exact absurd hc (by decide)
  rw [token?_cons_of_ne hdouble hsingle, isBareChar_of_isBlank hc, if_neg Bool.false_ne_true]

theorem tokens_allBlank_append {blanks : List Char} (h : AllBlank blanks) (rest : List Char) :
    tokens (blanks ++ rest) = tokens rest := by
  induction blanks with
  | nil => rfl
  | cons c blanks ih =>
    rw [List.cons_append, tokens_of_none (token?_blank (h c List.mem_cons_self) _)]
    exact ih fun d hd => h d (List.mem_cons_of_mem _ hd)

theorem tokens_append_blank {t : List Char} (h : token? t = some t) {c : Char}
    (hc : isBlank c = true) (rest : List Char) :
    tokens (t ++ c :: rest) = t :: tokens rest := by
  rw [tokens_of_some (token?_append_blank h hc rest), List.drop_left,
    tokens_of_none (token?_blank hc rest)]

/-- A lone token with blanks after it. -/
theorem tokens_append_allBlank {t blanks : List Char} (h : token? t = some t)
    (hblanks : AllBlank blanks) : tokens (t ++ blanks) = [t] := by
  have hnil : tokens [] = [] := by rw [tokens]
  cases blanks with
  | nil => rw [List.append_nil, tokens_of_some h, List.drop_length, hnil]
  | cons c blanks =>
    have hrest := tokens_allBlank_append (fun d hd => hblanks d (List.mem_cons_of_mem _ hd)) []
    rw [List.append_nil, hnil] at hrest
    rw [tokens_append_blank h (hblanks c List.mem_cons_self), hrest]

/-- Tokens with spaces between them are read back. -/
theorem tokens_intercalate {ts : List (List Char)} (hne : ts ≠ [])
    (h : ∀ t ∈ ts, token? t = some t) {blanks : List Char} (hblanks : AllBlank blanks) :
    tokens ([' '].intercalate ts ++ blanks) = ts := by
  induction ts with
  | nil => exact absurd rfl hne
  | cons t ts ih =>
    have ht := h t List.mem_cons_self
    cases ts with
    | nil =>
      rw [List.intercalate_singleton]
      exact tokens_append_allBlank ht hblanks
    | cons t' ts =>
      rw [List.intercalate_cons_cons, List.append_assoc, List.append_assoc,
        List.singleton_append, tokens_append_blank ht (by decide),
        ih (List.cons_ne_nil _ _) fun u hu => h u (List.mem_cons_of_mem _ hu)]

/-! ## Pieces -/

/-- An alternative: a comment that stands for the empty word, or tokens. -/
inductive Piece where
  | comment (text : List Char)
  | tokens (ts : List (List Char))

/-- An alternative as it is written, with a space between two tokens. -/
def Piece.text : Piece → List Char
  | comment text => text
  | tokens ts => [' '].intercalate ts

/-- The tokens of an alternative as they are read; none for a comment. -/
def Piece.read : Piece → Option (List String)
  | comment _ => none
  | tokens ts => some (ts.map String.ofList)

/-- The alternative can be read back. -/
def Piece.IsWritten : Piece → Prop
  | comment text => isNil text = true ∧ IsPiece text
  | tokens ts => ts ≠ [] ∧ ∀ t ∈ ts, IsToken t

instance : (p : Piece) → Decidable p.IsWritten
  | .comment _ => inferInstanceAs (Decidable (_ ∧ _))
  | .tokens _ => inferInstanceAs (Decidable (_ ∧ _))

/-- Reads one alternative of a right-hand side. -/
def readPiece (cs : List Char) : Option (List String) :=
  if isNil cs then none else some ((tokens cs).map String.ofList)

/-- A production is read alternative by alternative. -/
theorem readProduction_eq (cs : List Char) :
    readProduction cs =
      { choices := (((alternatives cs).map readPiece).filterMap id).filter (!·.isEmpty)
        optional := ((alternatives cs).map readPiece).any Option.isNone } := by
  have hchoices : ((alternatives cs).map readPiece).filterMap id =
      ((alternatives cs).filter (!isNil ·)).map fun choice =>
        (tokens choice).map String.ofList := by
    induction alternatives cs with
    | nil => rfl
    | cons piece pieces ih =>
      rw [List.map_cons, List.filter_cons, readPiece]
      cases isNil piece with
      | true => exact ih
      | false =>
        exact congrArg (fun choices => (tokens piece).map String.ofList :: choices) ih
  have hoptional : ((alternatives cs).map readPiece).any Option.isNone =
      (alternatives cs).any isNil := by
    rw [List.any_map]
    congr 1
    funext piece
    rw [Function.comp_apply, readPiece]
    cases isNil piece <;> rfl
  rw [hchoices, hoptional]
  rfl

/-- A token is a piece by itself. -/
theorem IsToken.isPiece {t : List Char} (h : IsToken t) : IsPiece t where
  solid := (shape_of_token? h.token).solid
  first hfirst :=
    ((shape_of_token? h.token).head_mem _ hfirst).ne (by decide) (by decide) (by decide) rfl
  final hfinal :=
    ((shape_of_token? h.token).getLast_mem _ hfinal).ne (by decide) (by decide) (by decide) rfl
  bar := h.bar
  line := h.line
  separator := h.separator

theorem Piece.IsWritten.isPiece {p : Piece} (h : p.IsWritten) : IsPiece p.text := by
  cases p with
  | comment text => exact h.2
  | tokens ts =>
    exact intercalate_induction (fun _ _ ha hb => ha.append_space hb) h.1
      fun t ht => (h.2 t ht).isPiece

/-! ## Comments -/

theorem dropText?_append {t cs rest : List Char} (h : dropText? t cs = some rest)
    (more : List Char) : dropText? t (cs ++ more) = some (rest ++ more) := by
  rw [dropText?_eq_some_iff] at h ⊢
  rw [h, List.append_assoc]

theorem dropText?_trimLeft_append {t cs rest : List Char} (ht : t ≠ [])
    (h : dropText? t (trimLeft cs) = some rest) (more : List Char) :
    dropText? t (trimLeft (cs ++ more)) = some (rest ++ more) := by
  have hne : trimLeft cs ≠ [] := by
    intro hnil
    rw [dropText?_eq_some_iff, hnil] at h
    exact ht (List.append_eq_nil_iff.1 h.symm).1
  rw [trimLeft_append_of_ne_nil hne, dropText?_append h]

/-- A comment remains one whatever comes after it. -/
theorem isNil_append {cs : List Char} (h : isNil cs = true) (more : List Char) :
    isNil (cs ++ more) = true := by
  unfold isNil at h ⊢
  cases hopen : dropText? "/*".toList cs with
  | none =>
    rw [hopen] at h
    cases h
  | some rest =>
    rw [hopen] at h
    rw [dropText?_append hopen]
    dsimp only at h ⊢
    cases hnil : dropText? "nil".toList (trimLeft rest) with
    | none =>
      rw [hnil] at h
      cases h
    | some rest' =>
      rw [hnil] at h
      rw [dropText?_trimLeft_append (by decide) hnil]
      dsimp only at h ⊢
      obtain ⟨rest'', hclose⟩ := Option.isSome_iff_exists.1 h
      rw [dropText?_trimLeft_append (by decide) hclose]
      rfl

theorem isNil_eq_false {cs : List Char} (h : cs.head? ≠ some '/') : isNil cs = false := by
  have hopen : dropText? "/*".toList cs = none := by
    cases hdrop : dropText? "/*".toList cs with
    | none => rfl
    | some rest =>
      rw [dropText?_eq_some_iff.1 hdrop] at h
      exact absurd rfl h
  rw [isNil, hopen]

/-! ## Reading back -/

theorem readPiece_text {p : Piece} (h : p.IsWritten) {blanks : List Char}
    (hblanks : AllBlank blanks) : readPiece (p.text ++ blanks) = p.read := by
  cases p with
  | comment text =>
    rw [Piece.text, readPiece, if_pos (isNil_append h.1 blanks)]
    rfl
  | tokens ts =>
    have hhead : (Piece.text (.tokens ts)).head? ≠ some '/' := by
      have hcomment : ∀ t ∈ ts, t ≠ [] ∧ t.head? ≠ some '/' := fun t ht =>
        have hshape := shape_of_token? (h.2 t ht).token
        ⟨hshape.ne_nil, fun hslash =>
          (hshape.head_mem _ hslash).ne (by decide) (by decide) (by decide) rfl⟩
      refine (intercalate_induction (P := fun cs => cs ≠ [] ∧ cs.head? ≠ some '/') ?_ h.1
        hcomment).2
      rintro a b ⟨hne, ha⟩ -
      cases a with
      | nil => exact absurd rfl hne
      | cons c a => exact ⟨List.cons_ne_nil _ _, ha⟩
    have hnil : isNil (Piece.text (.tokens ts) ++ blanks) = false := by
      apply isNil_eq_false
      have hne := (Piece.IsWritten.isPiece h).solid.ne_nil
      generalize Piece.text (.tokens ts) = text at hhead hne
      cases text with
      | nil => exact absurd rfl hne
      | cons c text => exact hhead
    rw [readPiece, hnil, if_neg Bool.false_ne_true, Piece.read, Piece.text,
      tokens_intercalate h.1 (fun t ht => (h.2 t ht).token) hblanks]

theorem solid_pieces {pieces : List Piece} (hne : pieces ≠ []) (h : ∀ p ∈ pieces, p.IsWritten) :
    Solid ([' ', '|', ' '].intercalate (pieces.map Piece.text)) := by
  apply intercalate_induction (fun _ _ ha hb => ha.append _ hb) (by simpa using hne)
  intro text htext
  obtain ⟨p, hp, rfl⟩ := List.mem_map.1 htext
  exact (h p hp).isPiece.solid

/-- Alternatives with bars between them are read back. -/
theorem map_readPiece_alternatives {pieces : List Piece} (hne : pieces ≠ [])
    (h : ∀ p ∈ pieces, p.IsWritten) {blanks : List Char} (hblanks : AllBlank blanks) :
    (alternatives ([' ', '|', ' '].intercalate (pieces.map Piece.text) ++ blanks)).map readPiece =
      pieces.map Piece.read := by
  induction pieces with
  | nil => exact absurd rfl hne
  | cons p pieces ih =>
    have hp := h p List.mem_cons_self
    cases pieces with
    | nil =>
      rw [List.map_singleton, List.intercalate_singleton,
        hp.isPiece.alternatives_append (alternatives_of_allBlank hblanks), List.map_singleton,
        readPiece_text hp hblanks]
      rfl
    | cons p' pieces =>
      have hrest := ih (List.cons_ne_nil _ _) fun q hq => h q (List.mem_cons_of_mem _ hq)
      have hsolid := solid_pieces (List.cons_ne_nil p' pieces)
        fun q hq => h q (List.mem_cons_of_mem _ hq)
      have hbar := alternatives_bar (hsolid.trimLeft_append blanks)
      have hfirst : readPiece (p.text ++ []) = p.read :=
        readPiece_text hp fun c hc => nomatch hc
      rw [List.map_cons, List.map_cons, List.intercalate_cons_cons, ← List.map_cons,
        List.append_assoc, List.append_assoc]
      rw [List.cons_append, List.cons_append, List.singleton_append,
        hp.isPiece.alternatives_append hbar, List.map_cons, hfirst, hrest]
      rfl

end CqlGlue.Listing
