import CqlGlue.Proofs.Code.Calls
import CqlGlue.Proofs.Code.Steady

/-!
# Statements that stay in code

A statement whose names begin neither a literal nor a comment is printed as a steady text.

## Main definitions
* `Expr.IsPlain` says of an expression that all its names are only of code.

## Main statements
* `Expr.isSteadyText` is about expressions, `Stmt.steady_declare` and those that follow are about
  the kinds of statements.
-/

namespace CqlGlue.Code

open Text

/-! ## Texts only of code -/

theorem isSteadyText_blanks (n : ℕ) : IsSteadyText (String.ofList (List.replicate n ' ')) := by
  refine .ofList (List.all_eq_true.2 fun c hc => ?_)
  rw [(List.mem_replicate.1 hc).2]
  decide

theorem isSteadyText_toString (n : ℕ) : IsSteadyText (toString n) := by
  intro c hc
  have hdigit : c.isDigit = true := by
    rw [Nat.toString_eq_repr, Nat.toList_repr] at hc
    exact Nat.isDigit_of_mem_toDigits (by decide) (by decide) hc
  simp only [List.mem_cons, List.not_mem_nil, or_false]
  rintro (rfl | rfl | rfl | rfl) <;> exact absurd hdigit (by decide)

/-! ## Expressions -/

mutual

/-- An expression whose names are only of code. -/
def Expr.IsPlain : Expr → Prop
  | .name s => IsSteadyText s
  | .address e | .negation e | .boxed e => e.IsPlain
  | .member a b | .property a b => IsSteadyText a ∧ IsSteadyText b
  | .element array _ => IsSteadyText array
  | .differ a b => a.IsPlain ∧ b.IsPlain
  | .cast type e => IsSteadyText type ∧ e.IsPlain
  | .choice c yes no => c.IsPlain ∧ yes.IsPlain ∧ no.IsPlain
  | .call function args => IsSteadyText function ∧ Expr.ArePlain args
  | .message receiver selector => receiver.IsPlain ∧ IsSteadyText selector

/-- Expressions whose names are only of code. -/
def Expr.ArePlain : List Expr → Prop
  | [] => True
  | e :: es => e.IsPlain ∧ Expr.ArePlain es

end

mutual

theorem Expr.isSteadyText : ∀ {e : Expr}, e.IsPlain → IsSteadyText e.text
  | .name _, h => by simpa only [Expr.text, Expr.IsPlain] using h
  | .address _, h => by
    simp only [Expr.text, lacks_append]
    exact ⟨by decide, Expr.isSteadyText (by simpa only [Expr.IsPlain] using h)⟩
  | .member _ _, h => by
    simp only [Expr.text, Expr.IsPlain, lacks_append] at h ⊢
    exact ⟨⟨h.1, by decide⟩, h.2⟩
  | .property _ _, h => by
    simp only [Expr.text, Expr.IsPlain, lacks_append] at h ⊢
    exact ⟨⟨h.1, by decide⟩, h.2⟩
  | .element _ index, h => by
    simp only [Expr.text, Expr.IsPlain, lacks_append] at h ⊢
    exact ⟨⟨⟨h, by decide⟩, isSteadyText_toString index⟩, by decide⟩
  | .negation _, h => by
    simp only [Expr.text, lacks_append]
    exact ⟨by decide, Expr.isSteadyText (by simpa only [Expr.IsPlain] using h)⟩
  | .differ _ _, h => by
    simp only [Expr.text, Expr.IsPlain, lacks_append] at h ⊢
    exact ⟨⟨Expr.isSteadyText h.1, by decide⟩, Expr.isSteadyText h.2⟩
  | .cast _ _, h => by
    simp only [Expr.text, Expr.IsPlain, lacks_append] at h ⊢
    exact ⟨⟨⟨by decide, h.1⟩, by decide⟩, Expr.isSteadyText h.2⟩
  | .choice _ _ _, h => by
    simp only [Expr.text, Expr.IsPlain, lacks_append] at h ⊢
    exact ⟨⟨⟨⟨Expr.isSteadyText h.1, by decide⟩, Expr.isSteadyText h.2.1⟩, by decide⟩,
      Expr.isSteadyText h.2.2⟩
  | .call _ _, h => by
    simp only [Expr.text, Expr.IsPlain, lacks_append] at h ⊢
    exact ⟨⟨⟨h.1, by decide⟩, lacks_intercalate (by decide) (Expr.isSteadyText_texts h.2)⟩,
      by decide⟩
  | .boxed _, h => by
    simp only [Expr.text, lacks_append]
    exact ⟨⟨by decide, Expr.isSteadyText (by simpa only [Expr.IsPlain] using h)⟩, by decide⟩
  | .message _ _, h => by
    simp only [Expr.text, Expr.IsPlain, lacks_append] at h ⊢
    exact ⟨⟨⟨⟨by decide, Expr.isSteadyText h.1⟩, by decide⟩, h.2⟩, by decide⟩

theorem Expr.isSteadyText_texts : ∀ {es : List Expr}, Expr.ArePlain es →
    ∀ x ∈ Expr.texts es, IsSteadyText x
  | [], _ => by simp [Expr.texts]
  | _ :: _, h => by
    rw [Expr.ArePlain] at h
    simp only [Expr.texts, List.forall_mem_cons]
    exact ⟨Expr.isSteadyText h.1, Expr.isSteadyText_texts h.2⟩

end

/-! ## Declarations -/

theorem isSteadyText_padded {text : String} (h : IsSteadyText text) (width : ℕ) :
    IsSteadyText (padded width text) :=
  lacks_append.2 ⟨h, isSteadyText_blanks _⟩

/-- What a variable holds at first, only of code. -/
def Start.IsPlain : Start → Prop
  | .value e => e.IsPlain
  | .unset | .null => True

theorem Declaration.isSteadyText {d : Declaration} (htype : IsSteadyText d.type)
    (hname : IsSteadyText d.name) (hstart : d.start.IsPlain) : IsSteadyText d.text := by
  rw [Declaration.text]
  refine lacks_append.2 ⟨?_, ?_⟩
  · split
    · simp only [lacks_append]
      exact ⟨⟨isSteadyText_padded htype 20, by decide⟩, isSteadyText_padded hname 25⟩
    · simp only [lacks_append]
      refine ⟨⟨htype, ?_⟩, hname⟩
      cases d.isPointer <;> decide
  · cases hs : d.start with
    | unset => exact (by decide : IsSteadyText ";")
    | value e =>
      rw [hs] at hstart
      simp only [lacks_append]
      exact ⟨⟨by decide, Expr.isSteadyText hstart⟩, by decide⟩
    | null =>
      simp only [lacks_append]
      exact ⟨⟨by decide, hname⟩, by decide⟩

/-! ## Statements -/

theorem isSteadyText_indent (level : ℕ) : IsSteadyText (Stmt.indent level) := isSteadyText_blanks _

theorem Steady.line {text : String} (h : Steady text) : Steady (text ++ "\n") :=
  h.append (.plain (by decide))

theorem steady_unlines {xs : List String} (h : ∀ x ∈ xs, Steady x) : Steady (unlines xs) := by
  induction xs with
  | nil => exact .plain (by decide)
  | cons x xs ih =>
    rw [unlines_cons]
    exact (h x List.mem_cons_self).line.append (ih fun y hy => h y (List.mem_cons_of_mem x hy))

theorem steady_linesOf {level : ℕ} {ss : List Stmt}
    (h : ∀ s ∈ ss, Steady (unlines (s.lines level))) :
    Steady (unlines (Stmt.linesOf level ss)) := by
  induction ss with
  | nil =>
    rw [Stmt.linesOf]
    exact .plain (by decide)
  | cons s ss ih =>
    rw [Stmt.linesOf, unlines_append]
    exact (h s List.mem_cons_self).append (ih fun t ht => h t (List.mem_cons_of_mem s ht))

namespace Stmt

/-- A statement on one line, only of code. -/
theorem steady_of_line {s : Stmt} {level : ℕ} {text : String} (hs : s.lines level = [text])
    (h : IsSteadyText text) : Steady (unlines (s.lines level)) := by
  rw [hs, unlines_singleton]
  exact (Steady.plain h).line

variable {e condition target value : Expr} (level : ℕ)

theorem steady_declare {d : Declaration} (htype : IsSteadyText d.type)
    (hname : IsSteadyText d.name) (hstart : d.start.IsPlain) :
    Steady (unlines ((declare d).lines level)) :=
  steady_of_line (by rw [lines])
    (lacks_append.2 ⟨isSteadyText_indent level, d.isSteadyText htype hname hstart⟩)

theorem steady_assign (htarget : target.IsPlain) (hvalue : value.IsPlain) :
    Steady (unlines ((assign target value).lines level)) := by
  refine steady_of_line (by rw [lines]) ?_
  simp only [lacks_append]
  exact ⟨⟨⟨⟨isSteadyText_indent level, Expr.isSteadyText htarget⟩, by decide⟩,
    Expr.isSteadyText hvalue⟩, by decide⟩

theorem steady_perform (h : e.IsPlain) : Steady (unlines ((perform e).lines level)) := by
  refine steady_of_line (by rw [lines]) ?_
  simp only [lacks_append]
  exact ⟨⟨isSteadyText_indent level, Expr.isSteadyText h⟩, by decide⟩

theorem steady_performWhen (hcondition : condition.IsPlain) (h : e.IsPlain) :
    Steady (unlines ((performWhen condition e).lines level)) := by
  refine steady_of_line (by rw [lines]) ?_
  simp only [lacks_append]
  exact ⟨⟨⟨⟨⟨isSteadyText_indent level, by decide⟩, Expr.isSteadyText hcondition⟩, by decide⟩,
    Expr.isSteadyText h⟩, by decide⟩

/-- A jump may have a comment behind it, to the end of the line. -/
theorem steady_jumpWhen (hcondition : condition.IsPlain) {exit : String} (hexit : IsSteadyText exit)
    {text : String} (htext : text = "" ∨ ∃ name, text = " //" ++ name ∧ IsOneLine name) :
    Steady (unlines ((jumpWhen condition exit text).lines level)) := by
  have hjump : Steady (indent level ++ "if (" ++ condition.text ++ ") goto " ++ exit ++ ";") := by
    refine .plain ?_
    simp only [lacks_append]
    exact ⟨⟨⟨⟨⟨isSteadyText_indent level, by decide⟩, Expr.isSteadyText hcondition⟩, by decide⟩,
      hexit⟩, by decide⟩
  rw [lines, unlines_singleton, String.append_assoc]
  refine hjump.append ?_
  rcases htext with rfl | ⟨name, rfl, hname⟩
  · exact .plain (by decide)
  · have hremark : " //" ++ name ++ "\n" = " " ++ ("//" ++ name ++ "\n") := by
      have hslashes : " //" = " " ++ "//" := by decide
      rw [hslashes]
      simp only [String.append_assoc]
    rw [hremark]
    exact .append (.plain (by decide)) (.lineComment hname)

theorem steady_block (hcondition : condition.IsPlain) {body : List Stmt}
    (hbody : ∀ s ∈ body, Steady (unlines (s.lines (level + 1)))) :
    Steady (unlines ((block condition body).lines level)) := by
  have hopen : IsSteadyText (indent level ++ "if (" ++ condition.text ++ ") \x7b") := by
    simp only [lacks_append]
    exact ⟨⟨⟨isSteadyText_indent level, by decide⟩, Expr.isSteadyText hcondition⟩, by decide⟩
  have hclose : IsSteadyText (indent level ++ "\x7d") :=
    lacks_append.2 ⟨isSteadyText_indent level, by decide⟩
  rw [lines, unlines_append, unlines_append, unlines_singleton, unlines_singleton]
  exact ((Steady.plain hopen).line.append (steady_linesOf hbody)).append (Steady.plain hclose).line

theorem steady_jump {exit : String} (h : IsSteadyText exit) :
    Steady (unlines ((jump exit).lines level)) := by
  refine steady_of_line (by rw [lines]) ?_
  simp only [lacks_append]
  exact ⟨⟨⟨isSteadyText_indent level, by decide⟩, h⟩, by decide⟩

theorem steady_label {name : String} (h : IsSteadyText name) :
    Steady (unlines ((label name).lines level)) := by
  refine steady_of_line (by rw [lines]) ?_
  simp only [lacks_append]
  exact ⟨⟨isSteadyText_indent level, h⟩, by decide⟩

theorem steady_leave : Steady (unlines ((leave none).lines level)) :=
  steady_of_line (by rw [lines]) (lacks_append.2 ⟨isSteadyText_indent level, by decide⟩)

theorem steady_blank : Steady (unlines (blank.lines level)) :=
  steady_of_line (by rw [lines]) (by decide)

/-- A call with an argument a line. -/
theorem steady_call {c : ProcCall} (hlayout : c.layout = .framed)
    (hfunction : IsSteadyText c.function) (hpassed : ∀ x ∈ c.passed, Steady x) :
    Steady (unlines ((call c).lines level)) := by
  have hopen : IsSteadyText (indent level ++ c.opening) := by
    simp only [ProcCall.opening, lacks_append]
    refine ⟨isSteadyText_indent level, ⟨?_, hfunction⟩, by decide⟩
    cases c.keepsCode <;> decide
  have hclose : IsSteadyText (indent level ++ ");") :=
    lacks_append.2 ⟨isSteadyText_indent level, by decide⟩
  have hitems : ∀ x ∈ c.passed.map fun x => "    " ++ x, Steady x :=
    List.forall_mem_map.2 fun x hx => .append (.plain (by decide)) (hpassed x hx)
  have hlist : Steady (String.intercalate ",\n" (c.passed.map fun x => "    " ++ x)) :=
    separated_induction (.plain (by decide)) .append (.plain (by decide)) hitems
  rw [lines, ProcCall.lines, hlayout]
  cases hp : c.passed with
  | nil =>
    refine steady_unlines ?_
    simp only [List.forall_mem_cons]
    exact ⟨.plain hopen, .plain hclose, by simp⟩
  | cons x xs =>
    rw [hp] at hlist
    refine steady_unlines ?_
    simp only [List.forall_mem_cons]
    exact ⟨.plain hopen, hlist, .plain hclose, by simp⟩

end Stmt

end CqlGlue.Code
