import CqlGlue.Proofs.Text.Lacks
import Mathlib.Data.List.Basic

/-!
# Lexemes of C files

What the C compiler sees of a text: its tokens, and the lines for the preprocessor. The text is
read as the language prescribes: lines that end in a backslash are continued on the next line,
comments count as white space, a token is as long as possible. Digraphs are not read, and two
points are one token even where no third one follows.

## Main definitions
* `lexemes` are the lexemes of a text.
* `Scanner` reads a text letter by letter, `Scanner.step` reads one letter.
* `AtLineStart` is what a scanner is like behind a line, in code or in a comment of many lines.

## Main statements
* `scan_append` and `lexemes_append` put texts together.
* `atLineStart_scan` is about texts that end in a line.
* `scan_remark`: where a line may start, a line that is a comment reads as nothing.
-/

namespace CqlGlue.Code

/-- A part of a text that means something. -/
inductive Lexeme where
  | token (spelling : String)
  /-- A line for the preprocessor, with its tokens behind the number sign. -/
  | directive (spellings : List String)
  deriving DecidableEq, Repr

/-! ## Tokens -/

/-- White space within a line. -/
def isBlank (c : Char) : Bool := c ∈ [' ', '\t', '\r', '\x0b', '\x0c']

/-- The characters of words. -/
def isWordChar (c : Char) : Bool := c.isAlphanum || c == '_' || 128 ≤ c.val

/-- The punctuators of more than one character, and what they begin with. -/
def punctuators : List String :=
  ["->", "++", "--", "<<", ">>", "<=", ">=", "==", "!=", "&&", "||", "*=", "/=", "%=", "+=", "-=",
    "<<=", ">>=", "&=", "^=", "|=", "..", "...", "##"]

/-- Whether a token is a number so far. -/
def isNumber : List Char → Bool
  | '.' :: d :: _ => d.isDigit
  | d :: _ => d.isDigit
  | [] => false

/-- Whether a token goes on with a character. -/
def goesOn (token : List Char) (c : Char) : Bool :=
  if isNumber token then
    isWordChar c || c == '.' ||
      (c == '+' || c == '-') && token.getLast?.any (· ∈ ['e', 'E', 'p', 'P'])
  else if token.all isWordChar then isWordChar c
  else (token == ['.'] && c.isDigit) || String.ofList (token ++ [c]) ∈ punctuators

/-- The words that a literal may begin with. -/
def literalPrefixes : List String := ["L", "u", "U", "u8"]

/-! ## The scanner -/

/-- What a scanner is within. -/
inductive Mode where
  /-- White space between tokens. -/
  | code
  | token (spelling : List Char)
  /-- A literal, and whether a backslash came last. -/
  | literal (quote : Char) (spelling : List Char) (escaped : Bool)
  | lineComment
  /-- A comment of many lines, and whether a star came last. -/
  | blockComment (afterStar : Bool)
  deriving DecidableEq, Repr

/-- A scanner. -/
structure Scanner where
  mode : Mode
  /-- The tokens of the line so far. -/
  line : List String
  deriving DecidableEq, Repr

namespace Scanner

/-- The scanner at the start of a text. -/
def start : Scanner := ⟨.code, []⟩

/-- The lexemes of a line. -/
def flush : List String → List Lexeme
  | "#" :: spellings => [.directive spellings]
  | spellings => spellings.map .token

/-- Reads a character after which a token may begin. -/
def begin (line : List String) (c : Char) : Scanner × List Lexeme :=
  if c = '\n' then (start, flush line)
  else if isBlank c then (⟨.code, line⟩, [])
  else if c = '"' ∨ c = '\'' then (⟨.literal c [c] false, line⟩, [])
  else (⟨.token [c], line⟩, [])

/-- Reads a character. A line gives its lexemes at its end. -/
def step (s : Scanner) (c : Char) : Scanner × List Lexeme :=
  match s.mode with
  | .code => begin s.line c
  | .token spelling =>
    if spelling = ['/'] ∧ c = '/' then (⟨.lineComment, s.line⟩, [])
    else if spelling = ['/'] ∧ c = '*' then (⟨.blockComment false, s.line⟩, [])
    else if goesOn spelling c then (⟨.token (spelling ++ [c]), s.line⟩, [])
    else if String.ofList spelling ∈ literalPrefixes ∧ (c = '"' ∨ c = '\'') then
      (⟨.literal c (spelling ++ [c]) false, s.line⟩, [])
    else begin (s.line ++ [String.ofList spelling]) c
  | .literal quote spelling escaped =>
    if c = '\n' then (start, flush (s.line ++ [String.ofList spelling]))
    else if escaped then (⟨.literal quote (spelling ++ [c]) false, s.line⟩, [])
    else if c = quote then (⟨.code, s.line ++ [String.ofList (spelling ++ [c])]⟩, [])
    else (⟨.literal quote (spelling ++ [c]) (c = '\\'), s.line⟩, [])
  | .lineComment => if c = '\n' then (start, flush s.line) else (s, [])
  | .blockComment afterStar =>
    if afterStar ∧ c = '/' then (⟨.code, s.line⟩, []) else (⟨.blockComment (c = '*'), s.line⟩, [])

/-- Reads characters one after the other. -/
def run (s : Scanner) : List Char → Scanner × List Lexeme
  | [] => (s, [])
  | c :: cs =>
    let first := s.step c
    let rest := run first.1 cs
    (rest.1, first.2 ++ rest.2)

/-- The lexemes of the last line, which no line end follows. -/
def finish (s : Scanner) : List Lexeme :=
  match s.mode with
  | .token spelling | .literal _ spelling _ => flush (s.line ++ [String.ofList spelling])
  | _ => flush s.line

end Scanner

/-- A text without the line ends that a backslash hides. -/
def joined : List Char → List Char
  | '\\' :: '\n' :: cs => joined cs
  | c :: cs => c :: joined cs
  | [] => []

/-- What a scanner makes of a text. -/
def scan (s : Scanner) (text : String) : Scanner × List Lexeme := s.run (joined text.toList)

/-- The lexemes of a text. -/
def lexemes (text : String) : List Lexeme :=
  (scan .start text).2 ++ (scan .start text).1.finish

example : lexemes "#define A \\\n 1.5e+3 // one\nif (a->b >= 'x')/* \" */ { }" =
    [.directive ["define", "A", "1.5e+3"], .token "if", .token "(", .token "a", .token "->",
      .token "b", .token ">=", .token "'x'", .token ")", .token "\x7b", .token "\x7d"] := by
  decide +kernel

/-! ## Texts put together -/

namespace Scanner

@[simp] theorem run_nil (s : Scanner) : s.run [] = (s, []) := rfl

theorem run_cons (s : Scanner) (c : Char) (cs : List Char) :
    s.run (c :: cs) = (((s.step c).1.run cs).1, (s.step c).2 ++ ((s.step c).1.run cs).2) := rfl

theorem run_append (s : Scanner) (cs ds : List Char) :
    s.run (cs ++ ds) = (((s.run cs).1.run ds).1, (s.run cs).2 ++ ((s.run cs).1.run ds).2) := by
  induction cs generalizing s with
  | nil => simp
  | cons c cs ih => rw [List.cons_append, run_cons, ih, run_cons, List.append_assoc]

end Scanner

theorem joined_cons {c : Char} {cs : List Char} (h : ¬(c = '\\' ∧ cs.head? = some '\n')) :
    joined (c :: cs) = c :: joined cs := by
  rw [joined]
  rintro ds rfl rfl
  exact h ⟨rfl, rfl⟩

theorem joined_append {cs ds : List Char} (h : cs.getLast? ≠ some '\\') :
    joined (cs ++ ds) = joined cs ++ joined ds := by
  fun_induction joined cs with
  | case1 cs ih =>
    rw [List.cons_append, List.cons_append, joined]
    cases cs with
    | nil => rfl
    | cons d cs => exact ih (by simpa using h)
  | case2 c cs hne ih =>
    cases cs with
    | nil =>
      have hc : ¬(c = '\\' ∧ ds.head? = some '\n') := fun hc => h (by simp [hc.1])
      rw [List.cons_append, List.nil_append, joined_cons hc]
      rfl
    | cons d cs =>
      have hc : ¬(c = '\\' ∧ ((d :: cs) ++ ds).head? = some '\n') := by
        rintro ⟨rfl, hd⟩
        have hd : d = '\n' := by simpa using hd
        exact hne cs rfl (by rw [hd])
      rw [List.cons_append, joined_cons hc, ih (by simpa using h), List.cons_append]
  | case3 => rfl

theorem joined_eq_self {cs : List Char} (h : '\\' ∉ cs) : joined cs = cs := by
  induction cs with
  | nil => rfl
  | cons c cs ih =>
    rw [List.mem_cons, not_or] at h
    rw [joined_cons fun hc => h.1 hc.1.symm, ih h.2]

/-- Texts are read one after the other, unless a backslash joins them. -/
theorem scan_append (s : Scanner) {a : String} (b : String) (h : a.toList.getLast? ≠ some '\\') :
    scan s (a ++ b) = ((scan (scan s a).1 b).1, (scan s a).2 ++ (scan (scan s a).1 b).2) := by
  rw [scan, String.toList_append, joined_append h, Scanner.run_append]
  rfl

/-- What reads as nothing may be left out. -/
theorem scan_append_of_nil {s t : Scanner} {a : String} (b : String)
    (hlast : a.toList.getLast? ≠ some '\\') (h : scan s a = (t, [])) :
    scan s (a ++ b) = scan t b := by
  rw [scan_append s b hlast, h]
  exact Prod.ext rfl (List.nil_append _)

theorem lexemes_of_scan {text : String} {out : List Lexeme} (h : scan .start text = (.start, out)) :
    lexemes text = out := by
  rw [lexemes, h]
  exact List.append_nil out

/-- A text that leads from code to code. -/
theorem scan_eq_lexemes {text : String} (h : (scan .start text).1 = .start) :
    scan .start text = (.start, lexemes text) := by
  have hscan : scan .start text = (.start, (scan .start text).2) := Prod.ext h rfl
  rw [lexemes_of_scan hscan]
  exact hscan

/-- A text that leads from code to code does not matter for what follows. -/
theorem lexemes_append {a : String} (b : String) (hlast : a.toList.getLast? ≠ some '\\')
    (h : (scan .start a).1 = .start) : lexemes (a ++ b) = lexemes a ++ lexemes b := by
  rw [lexemes, scan_append .start b hlast, scan_eq_lexemes h, List.append_assoc, ← lexemes]

/-! ## Lines -/

/-- Characters that no token goes on with. -/
theorem goesOn_eq_false {c : Char} (hc : c ∈ ['\n', '/', '"', '\'']) (token : List Char) :
    goesOn token c = false := by
  have hword : isWordChar c = false ∧ c.isDigit = false ∧ c ≠ '.' ∧ c ≠ '+' ∧ c ≠ '-' := by
    simp only [List.mem_cons, List.not_mem_nil, or_false] at hc
    rcases hc with rfl | rfl | rfl | rfl <;> decide
  have hlast : ∀ p ∈ punctuators, p.toList.getLast? ≠ some c := by
    simp only [List.mem_cons, List.not_mem_nil, or_false] at hc
    rcases hc with rfl | rfl | rfl | rfl <;> decide
  have hpunctuator : (String.ofList token).push c ∉ punctuators := fun h => hlast _ h (by simp)
  simp [goesOn, hword, hpunctuator]

/-- A scanner where a line may start: in code, or in a comment that began on an earlier line. -/
def AtLineStart (s : Scanner) : Prop := s = .start ∨ s.mode = .blockComment false

theorem atLineStart_step (s : Scanner) : AtLineStart (s.step '\n').1 := by
  have hbegin : ∀ line, AtLineStart (Scanner.begin line '\n').1 := fun line =>
    .inl (by simp [Scanner.begin])
  cases hm : s.mode with
  | code => simp [Scanner.step, hm, hbegin]
  | token spelling => simp [Scanner.step, hm, hbegin, goesOn_eq_false (c := '\n') (by decide)]
  | literal quote spelling escaped => exact .inl (by simp [Scanner.step, hm])
  | lineComment => exact .inl (by simp [Scanner.step, hm])
  | blockComment afterStar => exact .inr (by simp [Scanner.step, hm])

/-- A text that ends in a line, which no backslash continues. -/
def EndsLine (text : String) : Prop :=
  ∃ cs : List Char, text.toList = cs ++ ['\n'] ∧ cs.getLast? ≠ some '\\'

theorem EndsLine.getLast?_ne {text : String} (h : EndsLine text) :
    text.toList.getLast? ≠ some '\\' := by
  obtain ⟨cs, h, -⟩ := h
  simp [h]

/-- Behind a text that ends in a line a line may start. -/
theorem atLineStart_scan (s : Scanner) {text : String} (h : EndsLine text) :
    AtLineStart (scan s text).1 := by
  obtain ⟨cs, h, hcs⟩ := h
  rw [scan, h, joined_append hcs, Scanner.run_append]
  exact atLineStart_step _

theorem scan_append_of_endsLine (s : Scanner) {a : String} (b : String) (h : EndsLine a) :
    scan s (a ++ b) = ((scan (scan s a).1 b).1, (scan s a).2 ++ (scan (scan s a).1 b).2) :=
  scan_append s b h.getLast?_ne

/-! ## Remarks -/

theorem Scanner.run_of_step {s : Scanner} {cs : List Char} (h : ∀ c ∈ cs, s.step c = (s, [])) :
    s.run cs = (s, []) := by
  induction cs with
  | nil => rfl
  | cons c cs ih =>
    rw [run_cons, h c List.mem_cons_self, ih fun d hd => h d (List.mem_cons_of_mem c hd)]
    rfl

/-- Where a line may start, a line that is a comment reads as nothing. -/
theorem scan_remark {s : Scanner} (h : AtLineStart s) (n : ℕ) {text : String}
    (htext : Text.Lacks ['*', '\n', '\\'] text) :
    scan s (String.ofList (List.replicate n ' ') ++ "//" ++ text ++ "\n") = (s, []) := by
  let blanks := List.replicate n ' '
  have hblanks : ∀ c ∈ blanks, c = ' ' := fun c hc => (List.mem_replicate.1 hc).2
  have hchars : (String.ofList blanks ++ "//" ++ text ++ "\n").toList =
      blanks ++ (['/', '/'] ++ (text.toList ++ ['\n'])) := by
    simp
  have hjoined : '\\' ∉ blanks ++ (['/', '/'] ++ (text.toList ++ ['\n'])) := by
    simp only [List.mem_append, not_or]
    exact ⟨fun hc => absurd (hblanks _ hc) (by decide), by decide, htext.not_mem (by decide),
      by decide⟩
  have hne : ∀ c ∈ text.toList, c ≠ '*' ∧ c ≠ '\n' := fun c hc =>
    ⟨fun h => htext c hc (by simp [h]), fun h => htext c hc (by simp [h])⟩
  rw [scan, hchars, joined_eq_self hjoined]
  rcases h with rfl | h
  · have hindent : Scanner.start.run blanks = (.start, []) :=
      Scanner.run_of_step fun c hc => by rw [hblanks c hc]; rfl
    have hopen : Scanner.start.run ['/', '/'] = (⟨.lineComment, []⟩, []) := by decide
    have hcomment : (⟨.lineComment, []⟩ : Scanner).run text.toList = (⟨.lineComment, []⟩, []) :=
      Scanner.run_of_step fun c hc => by simp [Scanner.step, (hne c hc).2]
    simp only [Scanner.run_append, hindent, hopen, hcomment]
    rfl
  · -- the line stands within a comment, which only a star could bring nearer to its end
    have hstay : ∀ c, c ≠ '*' → s.step c = (s, []) := by
      intro c hc
      have hs : s = ⟨.blockComment false, s.line⟩ := by rw [← h]
      simp [Scanner.step, h, hc, ← hs]
    refine Scanner.run_of_step fun c hc => hstay c ?_
    simp only [List.mem_append, List.mem_cons, List.not_mem_nil, or_false] at hc
    rcases hc with hc | (rfl | rfl) | hc | rfl
    · rw [hblanks c hc]
      decide
    · decide
    · decide
    · exact (hne c hc).1
    · decide

end CqlGlue.Code
