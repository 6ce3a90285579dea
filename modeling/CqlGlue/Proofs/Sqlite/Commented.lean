import CqlGlue.Bindings.SqliteExtension
import CqlGlue.Proofs.Code.Calls
import CqlGlue.Proofs.Code.Steady
import CqlGlue.Proofs.Sqlite.Lines

/-!
# Comments between the lines of wrappers

A verbosity hides comments of a wrapper, each on a line of its own. Wherever it stands, in code or
in a comment that a name has opened, such a line reads as nothing, as long as no backslash
continues the line before it. So the lines before it are read in blocks that end in a line.

## Main definitions
* `ReadsAlike` says of two texts that they have the same lexemes, wherever they stand.
* `Commented` are lines with comments between blocks.

## Main statements
* `Commented.readsAlike`: such lines read alike at all levels.
* `SqliteExtension.lexemes_text_congr`: a file has the same lexemes at all levels but the lowest.
-/

namespace CqlGlue

open Code

namespace Code

/-! ## Texts that read alike -/

/-- Two texts read alike where a line may start, and a line may start behind them. -/
structure ReadsAlike (a b : String) : Prop where
  left : a.toList.getLast? ≠ some '\\'
  right : b.toList.getLast? ≠ some '\\'
  scan : ∀ s, AtLineStart s → scan s a = scan s b ∧ AtLineStart (scan s a).1

namespace ReadsAlike

theorem empty : ReadsAlike "" "" := ⟨by simp, by simp, fun _ hs => ⟨rfl, hs⟩⟩

theorem of_endsLine {text : String} (h : EndsLine text) : ReadsAlike text text :=
  ⟨h.getLast?_ne, h.getLast?_ne, fun s _ => ⟨rfl, atLineStart_scan s h⟩⟩

theorem append {a a' b b' : String} (h : ReadsAlike a a') (h' : ReadsAlike b b') :
    ReadsAlike (a ++ b) (a' ++ b') := by
  have hlast : ∀ {a b : String}, a.toList.getLast? ≠ some '\\' → b.toList.getLast? ≠ some '\\' →
      (a ++ b).toList.getLast? ≠ some '\\' := by
    intro a b ha hb
    rw [String.toList_append, List.getLast?_append]
    cases hl : b.toList.getLast? with
    | none => simpa using ha
    | some c => simpa [hl] using hb
  refine ⟨hlast h.left h'.left, hlast h.right h'.right, fun s hs => ?_⟩
  obtain ⟨hscan, hstart⟩ := h.scan s hs
  obtain ⟨hscan', hstart'⟩ := h'.scan _ hstart
  rw [scan_append s b h.left, scan_append s b' h.right, ← hscan, hscan']
  exact ⟨rfl, hscan' ▸ hstart'⟩

/-- Texts made of texts that read alike. -/
theorem join {α : Type} {f g : α → String} {xs : List α} (h : ∀ x ∈ xs, ReadsAlike (f x) (g x)) :
    ReadsAlike (String.join (xs.map f)) (String.join (xs.map g)) := by
  induction xs with
  | nil => exact empty
  | cons x xs ih =>
    rw [List.map_cons, List.map_cons, String.join_cons, String.join_cons]
    exact (h x List.mem_cons_self).append (ih fun y hy => h y (List.mem_cons_of_mem x hy))

theorem lexemes_append {a b : String} (h : ReadsAlike a b) (text : String) :
    lexemes (a ++ text) = lexemes (b ++ text) := by
  obtain ⟨hscan, -⟩ := h.scan .start (.inl rfl)
  rw [lexemes, scan_append _ _ h.left, hscan, lexemes, scan_append _ _ h.right]

end ReadsAlike

theorem getLast?_unlines (xs : List String) : (unlines xs).toList.getLast? ≠ some '\\' := by
  rcases List.eq_nil_or_concat xs with rfl | ⟨ys, x, rfl⟩
  · simp [unlines]
  · simp [unlines_append, unlines_singleton]

/-- Lines end a text unless a backslash ends the last one. -/
theorem endsLine_unlines (xs : List String) {x : String} (hx : x.toList.getLast? ≠ some '\\') :
    EndsLine (unlines (xs ++ [x])) := by
  refine ⟨(unlines xs ++ x).toList, by simp [unlines_append, unlines_singleton], ?_⟩
  rw [String.toList_append, List.getLast?_append]
  cases hl : x.toList.getLast? with
  | none => simpa using getLast?_unlines xs
  | some c => simpa [hl] using hx

theorem endsLine_append (before : String) {text : String} (cs : List Char) (c : Char)
    (htext : text.toList = cs ++ [c, '\n']) (hc : c ≠ '\\') : EndsLine (before ++ text) :=
  ⟨before.toList ++ cs ++ [c], by simp [htext], by simpa using hc⟩

end Code

namespace SqliteWrapper

/-! ## Lines -/

/-- The text of lines at a depth of nesting, as a verbosity shows them. -/
def linesText (level : ℕ) (v : Verbosity) (ls : List Line) : String :=
  unlines (Stmt.linesOf level (shown v ls))

theorem linesText_append (level : ℕ) (v : Verbosity) (xs ys : List Line) :
    linesText level v (xs ++ ys) = linesText level v xs ++ linesText level v ys := by
  rw [linesText, shown_append, Stmt.linesOf_append, unlines_append, linesText, linesText]

theorem getLast?_linesText (level : ℕ) (v : Verbosity) (ls : List Line) :
    (linesText level v ls).toList.getLast? ≠ some '\\' := getLast?_unlines _

theorem linesText_always (level : ℕ) (v : Verbosity) (ss : List Stmt) :
    linesText level v (ss.map always) = unlines (Stmt.linesOf level ss) := by
  rw [linesText, shown_map_always]

/-- A comment that reads as nothing wherever a line may start. -/
def IsRemark (text : String) : Prop :=
  text.toList.take 2 = ['/', '/'] ∧ Text.Lacks ['*', '\n', '\\'] text

instance (text : String) : Decidable (IsRemark text) := inferInstanceAs (Decidable (_ ∧ _))

/-- A literal need not be decoded to look at its characters. -/
theorem IsRemark.ofList {cs : List Char}
    (h : cs.take 2 = ['/', '/'] ∧ cs.all fun c => !(['*', '\n', '\\'].contains c)) :
    IsRemark (String.ofList cs) := ⟨by simpa using h.1, .ofList h.2⟩

/-- A comment goes on with any text of one line that holds no mark of a block. -/
theorem IsRemark.append {s t : String} (h : IsRemark s) (ht : Text.Lacks ['*', '\n', '\\'] t) :
    IsRemark (s ++ t) := by
  have hlength : 2 ≤ s.toList.length := by
    have := congrArg List.length h.1
    rw [List.length_take] at this
    simp only [List.length_cons, List.length_nil] at this
    omega
  refine ⟨?_, Text.lacks_append.2 ⟨h.2, ht⟩⟩
  rw [String.toList_append, List.take_append_of_le_length hlength, h.1]

/-- Lines that are shown at all levels, in blocks that end in a line, and comments between the
blocks. -/
inductive Commented (level : ℕ) : List Line → Prop where
  | nil : Commented level []
  | remark (least : Verbosity) {text : String} (h : IsRemark text) {rest : List Line}
      (hrest : Commented level rest) : Commented level (remark least text :: rest)
  | block {ss : List Stmt} (h : EndsLine (unlines (Stmt.linesOf level ss))) {rest : List Line}
      (hrest : Commented level rest) : Commented level (ss.map always ++ rest)

namespace Commented

variable {level : ℕ}

theorem append {xs ys : List Line} (hx : Commented level xs) (hy : Commented level ys) :
    Commented level (xs ++ ys) := by
  induction hx with
  | nil => exact hy
  | remark least h _ ih => exact .remark least h ih
  | block h _ ih =>
    rw [List.append_assoc]
    exact .block h ih

/-- A comment on a line of its own is shown or it is not. -/
theorem linesText_remark (v least : Verbosity) (text : String) :
    linesText level v [SqliteWrapper.remark least text] =
      if v.atLeast least then Stmt.indent level ++ text ++ "\n" else "" := by
  cases h : v.atLeast least <;>
    simp [linesText, shown, SqliteWrapper.remark, h, Stmt.linesOf, Stmt.lines, unlines]

theorem readsAlike_remark (v w least : Verbosity) {text : String} (h : IsRemark text) :
    ReadsAlike (linesText level v [SqliteWrapper.remark least text])
      (linesText level w [SqliteWrapper.remark least text]) := by
  obtain ⟨hslashes, hchars⟩ := h
  have htext : text = "//" ++ String.ofList (text.toList.drop 2) := by
    have hdrop := List.take_append_drop 2 text.toList
    rw [hslashes] at hdrop
    apply String.toList_injective
    simpa using hdrop.symm
  have hscan : ∀ v s, AtLineStart s →
      scan s (linesText level v [SqliteWrapper.remark least text]) = (s, []) := by
    intro v s hs
    rw [linesText_remark]
    split
    · rw [htext, ← String.append_assoc]
      exact scan_remark hs _ fun c hc => hchars c (List.mem_of_mem_drop (by simpa using hc))
    · rfl
  refine ⟨getLast?_unlines _, getLast?_unlines _, fun s hs => ?_⟩
  rw [hscan v s hs, hscan w s hs]
  exact ⟨rfl, hs⟩

/-- Lines with comments between them read alike at all levels. -/
theorem readsAlike {ls : List Line} (h : Commented level ls) (v w : Verbosity) :
    ReadsAlike (linesText level v ls) (linesText level w ls) := by
  induction h with
  | nil => exact .empty
  | @remark least text h rest _ ih =>
    have hcons : SqliteWrapper.remark least text :: rest =
        [SqliteWrapper.remark least text] ++ rest := rfl
    rw [hcons, linesText_append, linesText_append]
    exact (readsAlike_remark v w least h).append ih
  | block h _ ih =>
    rw [linesText_append, linesText_append, linesText_always, linesText_always]
    exact (ReadsAlike.of_endsLine h).append ih

end Commented

/-! ## Bodies -/

/-- The lines of a body before the empty statement. -/
def unended (p : Procedure) : List Line :=
  clearResult p ++ checkCount p ++ checkTypes p ++ argumentVariables p ++ dependencies p ++
    performCall p ++ releaseInputs p ++ checkCode p ++ giveResult p ++ rejection p ++
    ([always (.label goodExit), remark .verbose "// 10. Cleanup Outtie arguments"] ++
      (p.outArgs.filter (·.type.isRef)).map fun a =>
        always (.performWhen (.name a.name) (.call (releaser a.type) [.name a.name])))

theorem body_eq_unended (p : Procedure) :
    body p = unended p ++ [⟨.normal, .idle "Avoid empty block warning"⟩] := by
  simp only [body, unended, release, List.append_assoc]

theorem endsLine_blank (level : ℕ) (ss : List Stmt) :
    EndsLine (unlines (Stmt.linesOf level (ss ++ [.blank]))) := by
  have hblank : Stmt.linesOf level [.blank] = [""] := by simp [Stmt.linesOf, Stmt.lines]
  rw [Stmt.linesOf_append, hblank]
  exact endsLine_unlines _ (by simp)

namespace Commented

/-- Statements with an empty line behind them are a block. -/
theorem blank (ss : List Stmt) : Commented level (ss.map always ++ [always .blank]) := by
  simpa using Commented.block (endsLine_blank level ss) .nil

theorem remark_blank (least : Verbosity) {text : String} (h : IsRemark text) (ss : List Stmt) :
    Commented level (SqliteWrapper.remark least text :: (ss.map always ++ [always .blank])) :=
  .remark least h (.blank ss)

theorem dependencies (p : Procedure) : Commented 1 (SqliteWrapper.dependencies p) := by
  have hremark : IsRemark "// 4. Initialize procedure dependencies" :=
    .ofList (by decide)
  cases hd : p.usesDatabase <;> cases hp : p.hasProjection <;>
    simp only [SqliteWrapper.dependencies, hd, hp, if_true, if_false, Bool.false_eq_true]
  · exact .remark _ hremark .nil
  · exact .remark_blank _ hremark [_]
  · exact .remark_blank _ hremark [_, _]
  · exact .remark_blank _ hremark [_, .blank, _]

theorem checkCode (p : Procedure) : Commented 1 (SqliteWrapper.checkCode p) := by
  have hremark : IsRemark "// 7. Ensure the procedure executed successfully" :=
    .ofList (by decide)
  cases hd : p.usesDatabase <;>
    simp only [SqliteWrapper.checkCode, hd, if_true, if_false, Bool.false_eq_true]
  · exact .remark_blank _ hremark []
  · exact .remark_blank _ hremark [_]

theorem giveResult (p : Procedure) : Commented 1 (SqliteWrapper.giveResult p) := by
  rw [SqliteWrapper.giveResult, List.append_assoc]
  refine .remark _ (.ofList (by decide)) (.remark _ (.ofList (by decide)) (.remark _
    (.ofList (by decide)) (.remark _ (.ofList (by decide)) (.remark _ (.ofList (by decide)) ?_))))
  cases hp : p.hasProjection with
  | true => exact .remark_blank _ (.ofList (by decide)) [_, _]
  | false =>
    simp only [Bool.false_eq_true, if_false]
    cases ho : scalarOutput? p with
    | some a => exact .remark _ (.ofList (by decide)) (.remark_blank _ (.ofList (by decide)) [_, _])
    | none => exact .remark_blank _ (.ofList (by decide)) [_, _]

theorem rejection (p : Procedure) : Commented 1 (SqliteWrapper.rejection p) := by
  cases hp : p.hasProjection <;>
    simp only [SqliteWrapper.rejection, hp, if_true, if_false, Bool.false_eq_true]
  · exact .blank [_, _, _]
  · exact .blank [_, _]

/-- Statements of one line that end in a semicolon are a block. -/
theorem statements {ss : List Stmt}
    (h : ∀ s ∈ ss, ∃ text, s.lines level = [text ++ ";"]) : Commented level (ss.map always) := by
  rcases List.eq_nil_or_concat ss with rfl | ⟨rest, s, rfl⟩
  · exact .nil
  · obtain ⟨text, hs⟩ := h s (by simp)
    have hend : EndsLine (unlines (Stmt.linesOf level (rest ++ [s]))) := by
      have hlines : Stmt.linesOf level [s] = [text ++ ";"] := by simp [Stmt.linesOf, hs]
      rw [Stmt.linesOf_append, hlines]
      exact endsLine_unlines _ (by simp)
    simpa using Commented.block hend .nil

theorem clearResult (p : Procedure) : Commented 1 (SqliteWrapper.clearResult p) := by
  cases hp : p.hasProjection with
  | false => simpa [SqliteWrapper.clearResult, hp] using Commented.nil
  | true =>
    simp only [SqliteWrapper.clearResult, hp, if_true]
    exact .remark_blank _ (.ofList (by decide)) [_]

theorem checkCount (p : Procedure) : Commented 1 (SqliteWrapper.checkCount p) := by
  have hremark : IsRemark ("// 1. Ensure Sqlite function argument count matches count of the " ++
      "procedure in and inout arguments") :=
    .append (.ofList (by decide)) (.ofList (by decide))
  exact .remark_blank _ hremark [_]

theorem checkTypes (p : Procedure) : Commented 1 (SqliteWrapper.checkTypes p) := by
  have hremark : IsRemark "// 2. Ensure sqlite3 value type is compatible with cql type" :=
    .ofList (by decide)
  have hlines : Commented 1 _ := .remark_blank .verbose hremark
    (p.inArgs.zipIdx.map fun a => checkType a.1 a.2)
  simpa [SqliteWrapper.checkTypes, Function.comp_def] using hlines

theorem argumentVariables (p : Procedure) : Commented 1 (SqliteWrapper.argumentVariables p) := by
  have hremark : IsRemark "// 3. Marshalled argument initialization" := .ofList (by decide)
  have hlines : Commented 1 _ := .remark_blank .verbose hremark
    ((p.inArgs.zipIdx.map fun a => inputVariable a.1 a.2) ++
      (p.args.filter (·.binding == .outOnly)).map outputVariable)
  simpa [SqliteWrapper.argumentVariables, Function.comp_def] using hlines

theorem performCall (p : Procedure) : Commented 1 (SqliteWrapper.performCall p) :=
  .remark_blank _ (.ofList (by decide)) [_]

theorem releaseInputs (p : Procedure) : Commented 1 (SqliteWrapper.releaseInputs p) := by
  have hremark : IsRemark "// 6. Cleanup In arguments since they are no longer needed" :=
    .ofList (by decide)
  have hlines : Commented 1 _ := .remark_blank .verbose hremark
    ((p.args.filter fun a => a.binding == .inOnly && a.type.isRef).map fun a =>
      .perform (.call (releaser a.type) [.name a.name]))
  simpa [SqliteWrapper.releaseInputs, Function.comp_def] using hlines

theorem unended (p : Procedure) : Commented 1 (SqliteWrapper.unended p) := by
  have houtputs : Commented 1 (((p.outArgs.filter (·.type.isRef)).map fun a =>
      .performWhen (.name a.name) (.call (releaser a.type) [.name a.name])).map always) := by
    apply statements
    simp only [List.forall_mem_map]
    exact fun a _ => ⟨_, by rw [Stmt.lines]⟩
  rw [List.map_map] at houtputs
  have hexit : Commented 1 [always (.label goodExit),
      SqliteWrapper.remark .verbose "// 10. Cleanup Outtie arguments"] := by
    have hend : EndsLine (unlines (Stmt.linesOf 1 [.label goodExit])) :=
      endsLine_unlines [] (by decide)
    exact .block hend (.remark _ (.ofList (by decide)) .nil)
  exact (clearResult p).append (checkCount p) |>.append (checkTypes p)
    |>.append (argumentVariables p) |>.append (dependencies p) |>.append (performCall p)
    |>.append (releaseInputs p) |>.append (checkCode p) |>.append (giveResult p)
    |>.append (rejection p) |>.append (hexit.append houtputs)

end Commented

/-! ## Wrappers -/

/-- The empty statement that ends a body, at the levels that show it. -/
def endText (v : Verbosity) : String := linesText 1 v [⟨.normal, .idle "Avoid empty block warning"⟩]

/-- A wrapper up to its opening brace. -/
def headText (v : Verbosity) (name : String) (p : Procedure) : String :=
  linesText 0 v (preface name p) ++ ("void " ++ symbol name ++ "(" ++
    String.intercalate ", " ((params p).map Param.text) ++ ")\n" ++ "\x7b\n")

theorem text_eq (v : Verbosity) (name : String) (p : Procedure) :
    text v name p = headText v name p ++ linesText 1 v (unended p) ++ endText v ++
      "\x7d\n" ++ "\n" := by
  have htext : text v name p = linesText 0 v (preface name p) ++ ("void " ++ symbol name ++ "(" ++
      String.intercalate ", " ((params p).map Param.text) ++ ")\n" ++ "\x7b\n" ++
      linesText 1 v (body p) ++ "\x7d\n") ++ "\n" := rfl
  rw [htext, headText, body_eq_unended, linesText_append, ← endText]
  simp only [String.append_assoc]

theorem endsLine_headText (v : Verbosity) (name : String) (p : Procedure) :
    EndsLine (headText v name p) := by
  rw [headText, ← String.append_assoc]
  exact endsLine_append _ [] '\x7b' (by decide) (by decide)

/-- Levels show the same lines that are hidden at the lowest level only, unless just one of them
is the lowest. -/
theorem shown_normal {v w : Verbosity} (h : v = .quiet ↔ w = .quiet) {ls : List Line}
    (hls : ∀ l ∈ ls, l.least = .quiet ∨ l.least = .normal) : shown v ls = shown w ls := by
  have hlevel : ∀ least : Verbosity, least = .quiet ∨ least = .normal →
      v.atLeast least = w.atLeast least := by
    intro least hleast
    cases v <;> cases w <;> rcases hleast with rfl | rfl <;>
      simp_all [Verbosity.atLeast, Verbosity.rank]
  rw [shown, shown, List.filter_congr fun l hl => hlevel _ (hls l hl)]

theorem text_readsAlike {v w : Verbosity} (h : v = .quiet ↔ w = .quiet) (name : String)
    (p : Procedure) : ReadsAlike (text v name p) (text w name p) := by
  have hpreface : linesText 0 v (preface name p) = linesText 0 w (preface name p) := by
    rw [linesText, linesText, shown_normal h]
    simp [preface, or_imp, forall_and, remark]
  have hend : endText v = endText w := by
    rw [endText, endText, linesText, linesText, shown_normal h]
    simp
  have hhead : headText v name p = headText w name p := by rw [headText, headText, hpreface]
  have hbrace : EndsLine (endText w ++ "\x7d\n" ++ "\n") :=
    ⟨(endText w ++ "\x7d\n").toList, by simp, by simp⟩
  have hbody := (ReadsAlike.of_endsLine (endsLine_headText w name p)).append
    ((Commented.unended p).readsAlike v w)
  have htext := hbody.append (.of_endsLine hbrace)
  rw [text_eq, text_eq, hhead, hend]
  simpa only [String.append_assoc] using htext

end SqliteWrapper

namespace SqliteExtension

/-- A file before its wrappers. -/
def bannerText (o : Options) : String :=
  "// Generated by cqlgen from " ++ o.source ++ "\n\n" ++
  "#ifdef CQL_SQLITE_EXT\n" ++
  "#include <sqlite3ext.h>\n" ++
  "SQLITE_EXTENSION_INIT1\n" ++
  "#endif\n" ++
  "#include \"cqlrt.h\"\n" ++
  "#include \"cql_sqlite_extension.h\"\n" ++
  "#include \"" ++ o.cqlHeader ++ "\"\n\n"

theorem endsLine_bannerText (o : Options) : EndsLine (bannerText o) := by
  unfold bannerText
  exact endsLine_append _ ['"'] '\n' (by decide) (by decide)

/-- The parts of a file. -/
theorem text_eq_banner (o : Options) (v : Verbosity) (s : Schema) :
    text { o with verbosity := v } s =
      bannerText o ++ wrappersText { o with verbosity := v } s ++ initializerText o s := rfl

theorem lexemes_text_congr (o : Options) (s : Schema) {v w : Verbosity}
    (h : v = .quiet ↔ w = .quiet) :
    lexemes (text { o with verbosity := v } s) = lexemes (text { o with verbosity := w } s) := by
  have hwrappers : ReadsAlike (wrappersText { o with verbosity := v } s)
      (wrappersText { o with verbosity := w } s) :=
    .join fun p _ => SqliteWrapper.text_readsAlike h (sqlName o p) p
  have hbanner := ReadsAlike.of_endsLine (endsLine_bannerText o)
  rw [text_eq_banner, text_eq_banner]
  exact (hbanner.append hwrappers).lexemes_append _

end SqliteExtension

end CqlGlue
