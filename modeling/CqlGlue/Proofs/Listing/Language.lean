import CqlGlue.Proofs.Listing.Inlined
import CqlGlue.Proofs.Listing.Yields
import Mathlib.Data.List.Basic

/-!
# Inlining keeps what productions yield

Inlining substitutes words in the text of a listing, and the text is cut into alternatives
afterwards. As long as a word with several alternatives, or with the empty one, stands only as an
alternative of its own, the productions that remain yield what they yielded before. Next to other
tokens such a word does not keep the language: its first alternative comes to stand with the tokens
before it, its last one with those behind it.

## Main definitions
* `PiecesYield` says what alternatives yield.
* `Layered` says that words are defined once each and mention only later words, `AllFit` that they
  can be substituted in the rows that remain.

## Main statements
* `yields_put` says that putting the alternatives of a word in an alternative keeps what is
  yielded, and `piecesYield_putAll` that putting those of all words in a row does.
* `Layered.substituted` compares the grammars before and after inlining.
* `nameYields_run` says that inlining keeps what names yield.
* `not_nameYields_run_choice` is a listing for which it does not.
-/

namespace CqlGlue.Listing

open Text

/-! ## Productions of rows -/

/-- The names of the tokens of an alternative; a comment has none. -/
def Piece.names (p : Piece) : List String := p.mentioned.map String.ofList

/-- A row stands for its alternatives. -/
theorem Row.mem_bodies_production {r : Row} {v : List String} :
    v ∈ r.production.bodies ↔ ∃ p ∈ r.pieces, p.names = v := by
  rw [Production.bodies, List.mem_append]
  constructor
  · rintro (h | h)
    · obtain ⟨read, hread, hsome⟩ := List.mem_filterMap.1 h
      obtain ⟨p, hp, rfl⟩ := List.mem_map.1 hread
      cases p with
      | comment text => cases hsome
      | tokens ts =>
        cases hsome
        exact ⟨_, hp, rfl⟩
    · split at h
      · rename_i hoptional
        rw [List.mem_singleton.1 h]
        obtain ⟨read, hread, hnone⟩ := List.any_eq_true.1 hoptional
        obtain ⟨p, hp, rfl⟩ := List.mem_map.1 hread
        cases p with
        | comment text => exact ⟨_, hp, rfl⟩
        | tokens ts => cases hnone
      · exact absurd h List.not_mem_nil
  · rintro ⟨p, hp, rfl⟩
    cases p with
    | comment text =>
      have hoptional : r.production.optional = true :=
        List.any_eq_true.2 ⟨none, List.mem_map.2 ⟨_, hp, rfl⟩, rfl⟩
      rw [if_pos hoptional]
      exact .inr (List.mem_singleton_self _)
    | tokens ts =>
      exact .inl (List.mem_filterMap.2 ⟨_, List.mem_map.2 ⟨_, hp, rfl⟩, rfl⟩)

/-- What alternatives yield. -/
def PiecesYield (g : Grammar) (ps : List Piece) (v : List String) : Prop :=
  ∃ p ∈ ps, Yields g p.names v

theorem Row.piecesYield_iff {g : Grammar} {r : Row} {v : List String} :
    PiecesYield g r.pieces v ↔ ∃ body ∈ r.production.bodies, Yields g body v := by
  constructor
  · rintro ⟨p, hp, hv⟩
    exact ⟨p.names, mem_bodies_production.2 ⟨p, hp, rfl⟩, hv⟩
  · rintro ⟨body, hbody, hv⟩
    obtain ⟨p, hp, rfl⟩ := mem_bodies_production.1 hbody
    exact ⟨p, hp, hv⟩

/-! ## Putting alternatives -/

theorem piecesYield_singleton {g : Grammar} {p : Piece} {v : List String} :
    PiecesYield g [p] v ↔ Yields g p.names v := by
  simp [PiecesYield]

/-- In the grammar each word stands for its alternatives. -/
def Interprets (g : Grammar) (words : List (List Char)) (body : List Char → List Piece) : Prop :=
  ∀ w ∈ words, ∀ v, Yields g [String.ofList w] v ↔ PiecesYield g (body w) v

section

variable {g : Grammar} {words : List (List Char)} {body : List Char → List Piece}
  (hg : Interprets g words body)
include hg

/-- Putting the tokens of a single alternative for a word keeps what is yielded. -/
theorem yields_flatMap_single {w : List Char} (hw : w ∈ words) {ts : List (List Char)}
    (hsole : w ∈ ts → body w = [.tokens (soleTokens (body w))]) {v : List String} :
    Yields g ((ts.flatMap (single w (soleTokens (body w)))).map String.ofList) v ↔
      Yields g (ts.map String.ofList) v := by
  induction ts generalizing v with
  | nil => exact Iff.rfl
  | cons t ts ih =>
    rw [List.flatMap_cons, List.map_append, List.map_cons, ← List.singleton_append (l := ts.map _)]
    have hrest : w ∈ ts → body w = [.tokens (soleTokens (body w))] :=
      fun hmem => hsole (List.mem_cons_of_mem _ hmem)
    refine yields_append_congr (fun v => ?_) fun v => ih hrest
    rw [single]
    split
    · rename_i heq
      subst heq
      have hbody := hsole List.mem_cons_self
      rw [hg t hw]
      generalize soleTokens (body t) = us at hbody
      rw [hbody, piecesYield_singleton]
      rfl
    · exact Iff.rfl

/-- Putting the alternatives of a word keeps what is yielded. -/
theorem yields_put {w : List Char} (hw : w ∈ words) {p : Piece} (htakes : p.Takes w (body w))
    {v : List String} : PiecesYield g (p.put w (body w)) v ↔ Yields g p.names v := by
  cases p with
  | comment text => exact piecesYield_singleton
  | tokens ts =>
    rw [Piece.put]
    split
    · rename_i hts
      rw [hts]
      exact (hg w hw v).symm
    · rename_i hts
      exact piecesYield_singleton.trans (yields_flatMap_single hg hw (htakes.body_eq hts))

theorem piecesYield_put {w : List Char} (hw : w ∈ words) {r : Row}
    (htakes : ∀ p ∈ r.pieces, p.Takes w (body w)) {v : List String} :
    PiecesYield g (r.put w (body w)).pieces v ↔ PiecesYield g r.pieces v := by
  constructor
  · rintro ⟨q, hq, hv⟩
    obtain ⟨p, hp, hq⟩ := List.mem_flatMap.1 hq
    exact ⟨p, hp, (yields_put hg hw (htakes p hp)).1 ⟨q, hq, hv⟩⟩
  · rintro ⟨p, hp, hv⟩
    obtain ⟨q, hq, hv⟩ := (yields_put hg hw (htakes p hp)).2 hv
    exact ⟨q, List.mem_flatMap.2 ⟨p, hp, hq⟩, hv⟩

/-- Putting the alternatives of words in order keeps what a row yields. -/
theorem piecesYield_putAll {lines : List (List Char)} (h : HasBodies lines words body) {r : Row}
    (hr : r.IsReady words body) {ws : List (List Char)} (hws : ∀ w ∈ ws, w ∈ words)
    {v : List String} : PiecesYield g (r.putAll body ws).pieces v ↔ PiecesYield g r.pieces v := by
  induction ws generalizing r with
  | nil => exact Iff.rfl
  | cons w ws ih =>
    have hw := hws w List.mem_cons_self
    have hrest := ih (h.isReady_put hr hw) fun w' hw' => hws w' (List.mem_cons_of_mem _ hw')
    exact hrest.trans (piecesYield_put hg hw fun p hp => (hr.fits p hp).takes hw)

end

/-! ## Words in layers -/

/-- The words are defined once each, by alternatives that mention only later words. Otherwise they
stand as complete tokens. -/
structure Layered (words : List (List Char)) (lines : List Line) : Prop
    extends StandWhole words lines where
  distinct : ((rowsOf lines).map Row.name).Nodup
  defined : ∀ w ∈ words, w ∈ (rowsOf lines).map Row.name
  later : ∀ w ∈ words, ∀ p ∈ bodyPieces (rowsOf lines) w, ∀ t ∈ p.mentioned, t ∈ words →
    words.idxOf w < words.idxOf t

/-- The words can be substituted in the rows that remain. -/
def AllFit (words : List (List Char)) (lines : List Line) : Prop :=
  ∀ r ∈ rowsOf lines, r.name ∉ words → ∀ p ∈ r.pieces, Fits words (bodyPieces (rowsOf lines)) p

/-- The productions of the words alone. -/
def wordGrammar (words : List (List Char)) (lines : List Line) : Grammar :=
  (grammarOf (rowsOf lines)).only (words.map String.ofList)

/-- Words that are put in order are gone in the end if each brings in only later ones. -/
theorem not_mem_of_mem_putAll {words : List (List Char)} {body : List Char → List Piece}
    (hlater : ∀ w ∈ words, ∀ p ∈ body w, ∀ t ∈ p.mentioned, t ∈ words →
      words.idxOf w < words.idxOf t)
    {before ws : List (List Char)} (hws : words = before ++ ws) {r : Row}
    (hr : ∀ p ∈ r.pieces, ∀ t ∈ p.mentioned, t ∈ words → before.length ≤ words.idxOf t) :
    ∀ p ∈ (r.putAll body ws).pieces, ∀ t ∈ p.mentioned, t ∉ words := by
  -- As words move from `ws` to `before`, the words left in the row stand further back in the list.
  induction ws generalizing before r with
  | nil =>
    intro p hp t ht hword
    have hlt := List.idxOf_lt_length_of_mem hword
    rw [hws, List.append_nil] at hlt
    have hle := hr p hp t ht hword
    rw [hws, List.append_nil] at hle
    omega
  | cons w ws ih =>
    have hw : w ∈ words := hws ▸ List.mem_append_right _ List.mem_cons_self
    have hsplit : words = before ++ [w] ++ ws := by
      rw [hws, List.append_assoc, List.singleton_append]
    refine ih hsplit fun q hq t ht hword => ?_
    obtain ⟨p, hp, hq⟩ := List.mem_flatMap.1 hq
    rw [List.length_append, List.length_singleton]
    rcases mem_mentioned_of_mem_put hq ht with ⟨ht, hne⟩ | ⟨hmem, b, hb, ht⟩
    · have hle := hr p hp t ht hword
      -- The word at this place is the one that was put.
      have hother : words.idxOf t ≠ before.length := by
        intro heq
        have hget := List.getElem?_idxOf hword
        rw [heq, hws, List.getElem?_append_right (Nat.le_refl _), Nat.sub_self,
          List.getElem?_cons_zero, Option.some.injEq] at hget
        exact hne hget.symm
      omega
    · have hle := hr p hp w hmem hw
      have hlt := hlater w hw b hb t ht hword
      omega

/-- The words begin with a word character, so they are not in quotes. -/
theorem IsWord.isQuotedToken_eq_false {w : List Char} (h : IsWord w) :
    IsQuotedToken (String.ofList w) = false := by
  rw [IsQuotedToken, String.toList_ofList, ← Bool.not_eq_true, Option.any_eq_true]
  rintro ⟨c, hc, hquote⟩
  have hchar := h.wordChars c (List.mem_of_mem_head? hc)
  rw [Bool.or_eq_true, beq_iff_eq, beq_iff_eq] at hquote
  rcases hquote with rfl | rfl
  · exact absurd hchar (by decide)
  · exact absurd hchar (by decide)

theorem ofList_mem_map_iff {t : List Char} {words : List (List Char)} :
    String.ofList t ∈ words.map String.ofList ↔ t ∈ words :=
  List.mem_map_of_injective fun _ _ => String.ofList_inj.1

namespace Layered

variable {words : List (List Char)} {lines : List Line} (h : Layered words lines)
include h

theorem filter_name {r : Row} (hr : r ∈ rowsOf lines) :
    (rowsOf lines).filter (·.name == r.name) = [r] :=
  Table.filter_key_eq_singleton h.distinct hr

theorem get?_name {r : Row} (hr : r ∈ rowsOf lines) :
    (grammarOf (rowsOf lines)).get? (String.ofList r.name) = some r.production :=
  get?_grammarOf_of_filter (h.filter_name hr)

/-- Words that can be substituted in the remaining rows are substituted in the listing. -/
theorem expandable (hfits : AllFit words lines) : Expandable words lines where
  toStandWhole := h.toStandWhole
  defined w hw := by
    obtain ⟨r, hr, rfl⟩ := List.mem_map.1 (h.defined w hw)
    exact ⟨r, h.filter_name hr⟩
  fits := hfits

/-- A word refers to the row that defines it. -/
theorem exists_production? {w : List Char} (hw : w ∈ words) :
    ∃ r : Row, bodyPieces (rowsOf lines) w = r.pieces ∧
      (grammarOf (rowsOf lines)).production? (String.ofList w) = some r.production := by
  obtain ⟨r, hr, rfl⟩ := List.mem_map.1 (h.defined w hw)
  have hbare := (h.word r.name hw).isQuotedToken_eq_false
  exact ⟨r, bodyPieces_of_filter (h.filter_name hr), production?_of_get? hbare (h.get?_name hr)⟩

/-- Where only the words have productions, each stands for its alternatives. -/
theorem interprets :
    Interprets (wordGrammar words lines) words (bodyPieces (rowsOf lines)) := by
  intro w hw v
  obtain ⟨r, hpieces, hproduction⟩ := h.exists_production? hw
  have honly : (wordGrammar words lines).production? (String.ofList w) = some r.production :=
    (production?_only_of_mem (List.mem_map_of_mem hw)).trans hproduction
  rw [yields_singleton_iff honly, hpieces, Row.piecesYield_iff]

/-- The rows that come out mention none of the words. -/
theorem not_mem_of_mem_expanded (r : Row) :
    ∀ p ∈ (r.expanded words (rowsOf lines)).pieces, ∀ t ∈ p.mentioned, t ∉ words :=
  not_mem_of_mem_putAll h.later (List.nil_append words).symm fun _ _ _ _ _ => Nat.zero_le _

/-- The alternatives that come out are what the words make of those that come in. -/
theorem mem_bodies_expanded (hfits : AllFit words lines) {r : Row} (hr : r ∈ rowsOf lines)
    (hname : r.name ∉ words) {v : List String} :
    v ∈ (r.expanded words (rowsOf lines)).production.bodies ↔
      ∃ body ∈ r.production.bodies, Yields (wordGrammar words lines) body v := by
  have hexpandable := h.expandable hfits
  have hput : PiecesYield (wordGrammar words lines) (r.expanded words (rowsOf lines)).pieces v ↔
      PiecesYield (wordGrammar words lines) r.pieces v :=
    piecesYield_putAll h.interprets hexpandable.hasBodies (hexpandable.isReady_trimmed hr hname)
      fun _ hw => hw
  have hself : ∀ p ∈ (r.expanded words (rowsOf lines)).pieces,
      (Yields (wordGrammar words lines) p.names v ↔ v = p.names) := by
    intro p hp
    refine yields_iff_eq fun t ht => production?_only_of_not_mem ?_
    obtain ⟨u, hu, rfl⟩ := List.mem_map.1 ht
    rw [ofList_mem_map_iff]
    exact h.not_mem_of_mem_expanded r p hp u hu
  rw [Row.mem_bodies_production, ← Row.piecesYield_iff]
  refine Iff.trans ?_ hput
  constructor
  · rintro ⟨p, hp, rfl⟩
    exact ⟨p, hp, (hself p hp).2 rfl⟩
  · rintro ⟨p, hp, hv⟩
    exact ⟨p, hp, ((hself p hp).1 hv).symm⟩

theorem get?_expanded {r : Row} (hr : r ∈ rowsOf lines) (hname : r.name ∉ words) :
    (grammarOf (expandedRows words lines)).get? (String.ofList r.name) =
      some (r.expanded words (rowsOf lines)).production := by
  have hnames : ((expandedRows words lines).map Row.name).Nodup := by
    have hname : Row.name ∘ Row.expanded words (rowsOf lines) = Row.name :=
      funext (name_expanded words (rowsOf lines))
    rw [expandedRows, List.map_map, hname]
    exact h.distinct.sublist (List.filter_sublist.map _)
  have hmem : r.expanded words (rowsOf lines) ∈ expandedRows words lines :=
    List.mem_map_of_mem (List.mem_filter.2 ⟨hr, by simpa using hname⟩)
  rw [← name_expanded words (rowsOf lines) r]
  exact get?_grammarOf_of_filter (Table.filter_key_eq_singleton hnames hmem)

omit h in
/-- The names that come out are those of the rows that define no word. -/
theorem mem_keys_expanded {name : String} :
    name ∈ (grammarOf (expandedRows words lines)).keys ↔
      ∃ r ∈ rowsOf lines, r.name ∉ words ∧ String.ofList r.name = name := by
  rw [mem_keys_grammarOf]
  constructor
  · rintro ⟨r', hr', rfl⟩
    obtain ⟨r, hr, rfl⟩ := List.mem_map.1 hr'
    obtain ⟨hr, hname⟩ := List.mem_filter.1 hr
    exact ⟨r, hr, by simpa using hname, by rw [name_expanded]⟩
  · rintro ⟨r, hr, hname, rfl⟩
    have hmem : r.expanded words (rowsOf lines) ∈ expandedRows words lines :=
      List.mem_map_of_mem (List.mem_filter.2 ⟨hr, by simpa using hname⟩)
    exact ⟨_, hmem, by rw [name_expanded]⟩

/-- What comes out is the grammar in which the words are substituted. -/
theorem substituted (hfits : AllFit words lines) :
    Substituted (words.map String.ofList) (grammarOf (rowsOf lines))
      (grammarOf (expandedRows words lines)) where
  word t ht := by
    obtain ⟨w, hw, rfl⟩ := List.mem_map.1 ht
    obtain ⟨r, -, hproduction⟩ := h.exists_production? hw
    rw [hproduction]
    rfl
  keys name := by
    rw [mem_keys_expanded, mem_keys_grammarOf]
    constructor
    · rintro ⟨r, hr, hname, rfl⟩
      exact ⟨⟨r, hr, rfl⟩, fun hmem => hname (ofList_mem_map_iff.1 hmem)⟩
    · rintro ⟨⟨r, hr, rfl⟩, hname⟩
      exact ⟨r, hr, fun hmem => hname (ofList_mem_map_iff.2 hmem), rfl⟩
  bodies name p p' hp hp' v := by
    have hkey := Table.mem_keys_of_mem_entries (Table.get?_eq_some_iff.1 hp')
    obtain ⟨r, hr, hname, rfl⟩ := mem_keys_expanded.1 hkey
    obtain rfl := Option.some.inj ((h.get?_name hr).symm.trans hp)
    obtain rfl := Option.some.inj ((h.get?_expanded hr hname).symm.trans hp')
    exact h.mem_bodies_expanded hfits hr hname

end Layered

/-- Inlining does not fail, it drops the words, and the names that remain yield what they yielded,
if words with several alternatives, or with the empty one, stand as alternatives of their own. -/
theorem nameYields_run {words : List String} {lines : List Line}
    (h : Layered (words.map String.toList) lines) (hfits : AllFit (words.map String.toList) lines) :
    ∃ out, ((Inliner.ofWords words).run (String.ofList (listing lines))).value = .ok out ∧
      (∀ name, name ∈ (Grammar.parse out).keys ↔
        name ∈ (Grammar.parse (String.ofList (listing lines))).keys ∧ name ∉ words) ∧
      ∀ name, name ∉ words → ∀ u, NameYields (Grammar.parse out) name u ↔
        NameYields (Grammar.parse (String.ofList (listing lines))) name u := by
  have hexpandable := h.expandable hfits
  have hwords : (words.map String.toList).map String.ofList = words := by simp
  have hsubstituted := h.substituted hfits
  rw [hwords] at hsubstituted
  refine ⟨_, hexpandable.run_listing, ?_⟩
  rw [parse_listing h.written, parse_listing hexpandable.isWritten_expanded, rowsOf_expanded]
  exact ⟨hsubstituted.keys, fun name hname u => hsubstituted.nameYields_iff hname⟩

/-- A listing with the words `kind`, `outer` and `inner`, each used in the one before it. Only
`kind` has several alternatives, and it stands alone. -/
def layeredLines : List Line :=
  [.row ⟨"r ".toList, [' '],
      [.tokens ["outer".toList, "outer".toList], .tokens ["kind".toList]], []⟩,
    .row ⟨"kind ".toList, [' '],
      [.comment "/* nil */".toList, .tokens ["outer".toList, "\"C\"".toList]], []⟩,
    .row ⟨"outer ".toList, [' '], [.tokens ["inner".toList, "\"B\"".toList]], []⟩,
    .row ⟨"inner ".toList, [' '], [.tokens ["\"A\"".toList, "r".toList]], []⟩]

/-- The words of `layeredLines`, in order. -/
def layeredWords : List String := ["kind", "outer", "inner"]

theorem layered_layeredLines : Layered (layeredWords.map String.toList) layeredLines where
  word := by decide +kernel
  written := by decide +kernel
  distinct := by decide +kernel
  defined := by decide +kernel
  later := by decide +kernel
  front := by decide +kernel
  whole := by decide +kernel

theorem allFit_layeredLines : AllFit (layeredWords.map String.toList) layeredLines := by
  have hinner : IsSequence (layeredWords.map String.toList) (bodyPieces (rowsOf layeredLines))
      "inner".toList := by
    have hfree : ∀ t ∈ ["\"A\"".toList, "r".toList], t ∉ layeredWords.map String.toList := by
      decide +kernel
    exact .intro rfl fun t ht hword => absurd hword (hfree t ht)
  have houter : IsSequence (layeredWords.map String.toList) (bodyPieces (rowsOf layeredLines))
      "outer".toList := by
    have hword : ∀ t ∈ ["inner".toList, "\"B\"".toList], t ∈ layeredWords.map String.toList →
        t = "inner".toList := by
      decide +kernel
    exact .intro rfl fun t ht hmem => hword t ht hmem ▸ hinner
  have hkind : ∀ p ∈ bodyPieces (rowsOf layeredLines) "kind".toList,
      Fits (layeredWords.map String.toList) (bodyPieces (rowsOf layeredLines)) p := by
    intro p hp
    have hword : ∀ t ∈ ["outer".toList, "\"C\"".toList], t ∈ layeredWords.map String.toList →
        t = "outer".toList := by
      decide +kernel
    rcases List.mem_cons.1 hp with rfl | hp
    · exact .comment _
    · rw [List.mem_singleton.1 hp]
      exact .sequence fun t ht hmem => hword t ht hmem ▸ houter
  intro r hr hname p hp
  have hother : ∀ r ∈ (rowsOf layeredLines).tail, r.name ∈ layeredWords.map String.toList := by
    decide +kernel
  rcases List.mem_cons.1 hr with rfl | hr
  · rcases List.mem_cons.1 hp with rfl | hp
    · have hword : ∀ t ∈ ["outer".toList, "outer".toList], t = "outer".toList := by
        decide +kernel
      exact .sequence fun t ht _ => hword t ht ▸ houter
    · rw [List.mem_singleton.1 hp]
      exact .alone hkind
  · exact absurd (hother r hr) hname

theorem nameYields_run_layeredLines :
    ∃ out, ((Inliner.ofWords layeredWords).run (String.ofList (listing layeredLines))).value =
        .ok out ∧
      (∀ name, name ∈ (Grammar.parse out).keys ↔
        name ∈ (Grammar.parse (String.ofList (listing layeredLines))).keys ∧
          name ∉ layeredWords) ∧
      ∀ name, name ∉ layeredWords → ∀ u, NameYields (Grammar.parse out) name u ↔
        NameYields (Grammar.parse (String.ofList (listing layeredLines))) name u :=
  nameYields_run layered_layeredLines allFit_layeredLines

/-! ## Words among other tokens -/

/-- A listing in which a word with two alternatives stands in front of another token. -/
def choiceLines : List Line :=
  [.row ⟨"x ".toList, [' '], [.tokens ["a".toList], .tokens ["b".toList]], []⟩,
    .row ⟨"r ".toList, [' '], [.tokens ["x".toList, "c".toList]], []⟩]

theorem layered_choiceLines : Layered ["x".toList] choiceLines where
  word := by decide +kernel
  written := by decide +kernel
  distinct := by decide +kernel
  defined := by decide +kernel
  later := by decide +kernel
  front := by decide +kernel
  whole := by decide +kernel

/-- The alternatives of a word that stands among other tokens are taken apart. Nor does inlining
keep what is yielded where a right-hand side is empty: the next line is read for it, and this line
may be one that inlining drops. -/
theorem not_nameYields_run_choice :
    (Layered ["x".toList] choiceLines ∧
      ((Inliner.ofWords ["x"]).run (String.ofList (listing choiceLines))).value =
        .ok "r ::= a | b c\n" ∧
      NameYields (Grammar.parse (String.ofList (listing choiceLines))) "r" ["a", "c"] ∧
      ¬ NameYields (Grammar.parse "r ::= a | b c\n") "r" ["a", "c"]) ∧
    ((Inliner.ofWords ["x"]).run "y ::=\nx ::= a\nz ::= x b\n").value =
        .ok "y ::=\nz ::= a b\n" ∧
      NameYields (Grammar.parse "y ::=\nx ::= a\nz ::= x b\n") "z" ["x", "b"] ∧
      ¬ NameYields (Grammar.parse "y ::=\nz ::= a b\n") "z" ["x", "b"] := by
  have hx : (Grammar.parse (String.ofList (listing choiceLines))).production? "x" =
      some ⟨[["a"], ["b"]], false⟩ := by
    decide +kernel
  have hr : (Grammar.parse (String.ofList (listing choiceLines))).get? "r" =
      some ⟨[["x", "c"]], false⟩ := by
    decide +kernel
  have hrest : Yields (Grammar.parse (String.ofList (listing choiceLines))) ["a", "c"]
      ["a", "c"] := (yields_iff_eq (by decide +kernel)).2 rfl
  have hr' : (Grammar.parse "r ::= a | b c\n").get? "r" =
      some ⟨[["a"], ["b", "c"]], false⟩ := by
    decide +kernel
  have hz : (Grammar.parse "y ::=\nx ::= a\nz ::= x b\n").get? "z" =
      some ⟨[["x", "b"]], false⟩ := by
    decide +kernel
  have hz' : (Grammar.parse "y ::=\nz ::= a b\n").get? "z" = none := by decide +kernel
  refine ⟨⟨layered_choiceLines, by decide +kernel, ?_, ?_⟩, by decide +kernel, ?_, ?_⟩
  · exact ⟨_, hr, _, List.mem_singleton_self _, .production hx List.mem_cons_self hrest⟩
  · rw [nameYields_iff_mem hr' (by decide +kernel)]
    decide
  · rw [nameYields_iff_mem hz (by decide +kernel)]
    decide
  · rintro ⟨p, hp, -⟩
    exact Option.some_ne_none p (hp.symm.trans hz')

end CqlGlue.Listing
