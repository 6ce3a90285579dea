import CqlGlue.Proofs.Code.Lexeme

/-!
# Texts that stay in code

A text may leave the scanner within a literal or a comment, and then what follows is not code. A
steady text does not: its literals and its comments are closed.

## Main definitions
* `Steady` are such texts.

## Main statements
* `Steady.scan_start`: a steady text behind which a line may start leads from code to code.
-/

namespace CqlGlue.Code

/-- A text only of code: no character begins a literal or a comment or continues a line. -/
abbrev IsSteadyText (text : String) : Prop := Text.Lacks ['/', '"', '\'', '\\'] text

/-- A text on a line that goes on to its end. -/
abbrev IsOneLine (text : String) : Prop := Text.Lacks ['\n', '\\'] text

/-- A text whose literals and comments are closed. -/
inductive Steady : String → Prop where
  | plain {text : String} (h : IsSteadyText text) : Steady text
  | append {a b : String} (ha : Steady a) (hb : Steady b) : Steady (a ++ b)
  | comment {text : String} (h : Text.Lacks ['/', '\\'] text) : Steady ("/*" ++ text ++ "*/")
  | literal {text : String} (h : Text.Lacks ['"', '\\', '\n'] text) :
      Steady ("\"" ++ text ++ "\"")
  | lineComment {text : String} (h : IsOneLine text) : Steady ("//" ++ text ++ "\n")

/-- A scanner in code, where no comment is about to begin. -/
def InCode (s : Scanner) : Prop := s.mode = .code ∨ ∃ token, s.mode = .token token ∧ token ≠ ['/']

/-- The characters that keep a scanner in code. -/
def IsSteadyChar (c : Char) : Prop := c ≠ '/' ∧ c ≠ '"' ∧ c ≠ '\''

theorem IsSteadyText.isSteadyChar {text : String} (h : IsSteadyText text) :
    ∀ c ∈ text.toList, IsSteadyChar c := by
  intro c hc
  have hmem := h c hc
  simp only [List.mem_cons, not_or] at hmem
  exact ⟨hmem.1, hmem.2.1, hmem.2.2.1⟩

theorem inCode_begin (line : List String) {c : Char} (h : IsSteadyChar c) :
    InCode (Scanner.begin line c).1 := by
  obtain ⟨hslash, hdouble, hsingle⟩ := h
  rw [Scanner.begin]
  split
  · exact .inl rfl
  · split
    · exact .inl rfl
    · rw [if_neg (by simp [hdouble, hsingle])]
      exact .inr ⟨[c], rfl, by simpa using hslash⟩

theorem InCode.step {s : Scanner} (h : InCode s) {c : Char} (hc : IsSteadyChar c) :
    InCode (s.step c).1 := by
  rcases h with h | ⟨token, h, hslash⟩
  · simpa [Scanner.step, h] using inCode_begin s.line hc
  · simp only [Scanner.step, h, hslash, false_and, if_false]
    split
    · exact .inr ⟨token ++ [c], rfl, fun ht => hc.1 (by simpa using congrArg List.getLast? ht)⟩
    · rw [if_neg (by simp [hc.2.1, hc.2.2])]
      exact inCode_begin _ hc

theorem InCode.run {s : Scanner} (h : InCode s) {cs : List Char} (hcs : ∀ c ∈ cs, IsSteadyChar c) :
    InCode (s.run cs).1 := by
  induction cs generalizing s with
  | nil => exact h
  | cons c cs ih =>
    exact ih (h.step (hcs c List.mem_cons_self)) fun d hd => hcs d (List.mem_cons_of_mem c hd)

/-- In code a slash begins a token of its own. -/
theorem InCode.step_slash {s : Scanner} (h : InCode s) : (s.step '/').1.mode = .token ['/'] := by
  have hbegin : ∀ line, (Scanner.begin line '/').1.mode = .token ['/'] := fun line => by
    simp [Scanner.begin, isBlank]
  rcases h with h | ⟨token, h, hslash⟩
  · simpa [Scanner.step, h] using hbegin s.line
  · have hgoesOn := goesOn_eq_false (c := '/') (by decide) token
    simpa [Scanner.step, h, hslash, hgoesOn] using hbegin _

/-- In code a quote begins a literal, alone or with the word before it. -/
theorem InCode.step_quote {s : Scanner} (h : InCode s) :
    ∃ spelling, (s.step '"').1.mode = .literal '"' spelling false := by
  have hbegin : ∀ line, (Scanner.begin line '"').1.mode = .literal '"' ['"'] false := fun line => by
    simp [Scanner.begin, isBlank]
  rcases h with h | ⟨token, h, hslash⟩
  · exact ⟨_, by simpa [Scanner.step, h] using hbegin s.line⟩
  · have hgoesOn := goesOn_eq_false (c := '"') (by decide) token
    simp only [Scanner.step, h, hslash, hgoesOn, false_and, if_false, Bool.false_eq_true]
    split
    · exact ⟨_, rfl⟩
    · exact ⟨_, hbegin _⟩

/-- What holds of the mode of a scanner and is kept by some characters holds behind them. -/
theorem run_mode {P : Mode → Prop} {cs : List Char} {s : Scanner} (h : P s.mode)
    (hstep : ∀ c ∈ cs, ∀ s : Scanner, P s.mode → P (s.step c).1.mode) : P (s.run cs).1.mode := by
  induction cs generalizing s with
  | nil => exact h
  | cons c cs ih =>
    exact ih (hstep c List.mem_cons_self s h) fun d hd => hstep d (List.mem_cons_of_mem c hd)

theorem InCode.run_comment {s : Scanner} (h : InCode s) {cs : List Char} (hcs : '/' ∉ cs) :
    InCode (s.run (['/', '*'] ++ (cs ++ ['*', '/']))).1 := by
  have hopen : ((s.step '/').1.step '*').1.mode = .blockComment false := by
    rw [Scanner.step, h.step_slash]
    rfl
  have hstay : ∃ afterStar, ((((s.step '/').1.step '*').1).run cs).1.mode =
      .blockComment afterStar := by
    refine run_mode (P := fun m => ∃ afterStar, m = .blockComment afterStar) ⟨false, hopen⟩ ?_
    rintro c hc t ⟨afterStar, ht⟩
    have hslash : c ≠ '/' := fun hslash => hcs (hslash ▸ hc)
    exact ⟨_, by simp [Scanner.step, ht, hslash]; rfl⟩
  obtain ⟨afterStar, hstay⟩ := hstay
  simp only [Scanner.run_append, Scanner.run_cons, Scanner.run_nil]
  have hstar : (((((s.step '/').1.step '*').1).run cs).1.step '*').1.mode =
      .blockComment true := by
    rw [Scanner.step, hstay]
    cases afterStar <;> rfl
  left
  rw [Scanner.step, hstar]
  rfl

theorem InCode.run_literal {s : Scanner} (h : InCode s) {cs : List Char}
    (hcs : ∀ c ∈ cs, c ∉ ['"', '\\', '\n']) : InCode (s.run (['"'] ++ (cs ++ ['"']))).1 := by
  have hstay : ∃ spelling, ((s.step '"').1.run cs).1.mode = .literal '"' spelling false := by
    refine run_mode (P := fun m => ∃ spelling, m = .literal '"' spelling false) h.step_quote ?_
    rintro c hc t ⟨spelling, ht⟩
    have hmem := hcs c hc
    simp only [List.mem_cons, List.not_mem_nil, or_false, not_or] at hmem
    exact ⟨spelling ++ [c], by simp [Scanner.step, ht, hmem]⟩
  obtain ⟨spelling, hstay⟩ := hstay
  simp only [Scanner.run_append, Scanner.run_cons, Scanner.run_nil]
  left
  rw [Scanner.step, hstay]
  rfl

theorem InCode.run_lineComment {s : Scanner} (h : InCode s) {cs : List Char} (hcs : '\n' ∉ cs) :
    InCode (s.run (['/', '/'] ++ (cs ++ ['\n']))).1 := by
  have hopen : ((s.step '/').1.step '/').1.mode = .lineComment := by
    rw [Scanner.step, h.step_slash]
    rfl
  have hstay : ((((s.step '/').1.step '/').1).run cs).1.mode = .lineComment := by
    refine run_mode (P := (· = .lineComment)) hopen ?_
    rintro c hc t ht
    have hline : c ≠ '\n' := fun hline => hcs (hline ▸ hc)
    simp [Scanner.step, ht, hline]
  simp only [Scanner.run_append, Scanner.run_cons, Scanner.run_nil]
  left
  rw [Scanner.step, hstay]
  rfl

namespace Steady

theorem not_mem_backslash {text : String} (h : Steady text) : '\\' ∉ text.toList := by
  induction h with
  | plain h => exact h.not_mem (by decide)
  | append _ _ iha ihb => simp [iha, ihb]
  | comment h => simpa using h.not_mem (by decide)
  | literal h => simpa using h.not_mem (by decide)
  | lineComment h => simpa using h.not_mem (by decide)

theorem inCode_run {text : String} (h : Steady text) {s : Scanner} (hs : InCode s) :
    InCode (s.run text.toList).1 := by
  induction h generalizing s with
  | plain h => exact hs.run h.isSteadyChar
  | append _ _ iha ihb =>
    rw [String.toList_append, Scanner.run_append]
    exact ihb (iha hs)
  | comment h => simpa using hs.run_comment (h.not_mem (by decide))
  | literal h => simpa using hs.run_literal h
  | lineComment h => simpa using hs.run_lineComment (h.not_mem (by decide))

/-- A steady text behind which a line may start leads from code to code. -/
theorem scan_start {text : String} (h : Steady text) (hline : AtLineStart (scan .start text).1) :
    (scan .start text).1 = .start := by
  rcases hline with hstart | hcomment
  · exact hstart
  · -- behind a steady text the scanner is in code, never in a comment of many lines
    have hcode := h.inCode_run (s := .start) (.inl rfl)
    rw [scan, joined_eq_self h.not_mem_backslash] at hcomment
    rcases hcode with hcode | ⟨token, hcode, -⟩ <;> rw [hcode] at hcomment <;> cases hcomment

end Steady

/-! ## Comments in code -/

theorem run_blockComment {cs : List Char} (h : '/' ∉ cs) (afterStar : Bool) (line : List String) :
    ∃ afterStar', (⟨.blockComment afterStar, line⟩ : Scanner).run cs =
      (⟨.blockComment afterStar', line⟩, []) := by
  induction cs generalizing afterStar with
  | nil => exact ⟨afterStar, rfl⟩
  | cons c cs ih =>
    rw [List.mem_cons, not_or] at h
    obtain ⟨afterStar', hrun⟩ := ih h.2 (c = '*')
    have hstep : (⟨.blockComment afterStar, line⟩ : Scanner).step c =
        (⟨.blockComment (c = '*'), line⟩, []) := by
      simp [Scanner.step, Ne.symm h.1]
    rw [Scanner.run_cons, hstep, hrun]
    exact ⟨afterStar', rfl⟩

/-- At the start of a line of code, a line that is a comment reads as nothing. -/
theorem scan_comment {text : String} (h : Text.Lacks ['/', '\\'] text) :
    scan .start ("/*" ++ text ++ "*/" ++ "\n") = (.start, []) := by
  have hchars : ("/*" ++ text ++ "*/" ++ "\n").toList =
      ['/', '*'] ++ (text.toList ++ ['*', '/', '\n']) := by
    simp
  have hjoined : '\\' ∉ ['/', '*'] ++ (text.toList ++ ['*', '/', '\n']) := by
    simp only [List.mem_append, not_or]
    exact ⟨by decide, h.not_mem (by decide), by decide⟩
  have hopen : Scanner.start.run ['/', '*'] = (⟨.blockComment false, []⟩, []) := by decide
  obtain ⟨afterStar, hrun⟩ := run_blockComment (h.not_mem (by decide)) false []
  rw [scan, hchars, joined_eq_self hjoined, Scanner.run_append, hopen, Scanner.run_append, hrun]
  cases afterStar <;> decide

end CqlGlue.Code
