import CqlGlue.Bindings.Code
import Mathlib.Data.List.Basic

/-!
# Calls in C code

What the statements of a function say about the calls of procedures among them, and how a call
is printed. Calls are laid out in three ways; in all of them the expressions that a call passes
stand between the parentheses with one comma between any two neighbours, and with nothing else
but blanks, line ends and comments.

## Main definitions
* `Stmt.callsIn` are the calls among statements, `Function.scope` is what a function has
  declared before a statement.
* `CommaSeparated` says how a list of expressions is written.
* `ProcCall.expressions` are the expressions a call passes.

## Main statements
* `ProcCall.exists_commaSeparated` says how a call is printed, whatever its layout.
-/

namespace CqlGlue.Code

/-! ## Statements -/

mutual

/-- The calls of procedures in a statement. -/
def Stmt.calls : Stmt → List ProcCall
  | .call c => [c]
  | .block _ body => Stmt.callsIn body
  | _ => []

/-- The calls of procedures among statements. -/
def Stmt.callsIn : List Stmt → List ProcCall
  | [] => []
  | s :: ss => s.calls ++ Stmt.callsIn ss

end

/-- The type and the name of the variable that a statement declares for those after it. -/
def Stmt.declared? : Stmt → Option (String × String)
  | .declare d => some (d.type, d.name)
  | .record type name _ => some (type, name)
  | _ => none

/-- What statements declare for those after them. -/
def Stmt.declaredIn (ss : List Stmt) : List (String × String) := ss.filterMap Stmt.declared?

/-- What a function may name behind some of its statements: its parameters, and the variables
that these statements declare. -/
def Function.scope (f : Function) (before : List Stmt) : List (String × String) :=
  f.params.map (fun q => (q.type, q.name)) ++ Stmt.declaredIn before

namespace Stmt

@[simp] theorem callsIn_nil : callsIn [] = [] := by rw [callsIn]

@[simp] theorem callsIn_cons (s : Stmt) (ss : List Stmt) :
    callsIn (s :: ss) = s.calls ++ callsIn ss := by rw [callsIn]

@[simp] theorem callsIn_append (ss ts : List Stmt) :
    callsIn (ss ++ ts) = callsIn ss ++ callsIn ts := by
  induction ss with
  | nil => simp
  | cons s ss ih => simp [ih]

theorem callsIn_eq_nil {ss : List Stmt} (h : ∀ s ∈ ss, s.calls = []) : callsIn ss = [] := by
  induction ss with
  | nil => exact callsIn_nil
  | cons s ss ih =>
    rw [callsIn_cons, h s List.mem_cons_self, ih fun t ht => h t (List.mem_cons_of_mem s ht)]
    rfl

theorem callsIn_flatMap {α : Type} {f : α → List Stmt} {xs : List α}
    (h : ∀ x ∈ xs, callsIn (f x) = []) : callsIn (xs.flatMap f) = [] := by
  induction xs with
  | nil => exact callsIn_nil
  | cons x xs ih =>
    rw [List.flatMap_cons, callsIn_append, h x List.mem_cons_self,
      ih fun y hy => h y (List.mem_cons_of_mem x hy)]
    rfl

@[simp] theorem callsIn_setOff (ss : List Stmt) : callsIn (setOff ss) = callsIn ss := by
  cases ss with
  | nil => rfl
  | cons s ss => simp [setOff, calls]

@[simp] theorem declaredIn_append (ss ts : List Stmt) :
    declaredIn (ss ++ ts) = declaredIn ss ++ declaredIn ts := List.filterMap_append

theorem declaredIn_subset {ss ts : List Stmt} (h : ss ⊆ ts) : declaredIn ss ⊆ declaredIn ts := by
  intro x hx
  obtain ⟨s, hs, hx⟩ := List.mem_filterMap.1 hx
  exact List.mem_filterMap.2 ⟨s, h hs, hx⟩

theorem subset_setOff (ss : List Stmt) : ss ⊆ setOff ss := by
  cases ss with
  | nil => exact List.Subset.refl _
  | cons s ss => exact List.subset_append_left ..

theorem linesOf_append (level : Nat) (ss ts : List Stmt) :
    linesOf level (ss ++ ts) = linesOf level ss ++ linesOf level ts := by
  induction ss with
  | nil => rw [linesOf, List.nil_append, List.nil_append]
  | cons s ss ih => rw [List.cons_append, linesOf, linesOf, ih, List.append_assoc]

end Stmt

theorem unlines_append (xs ys : List String) : unlines (xs ++ ys) = unlines xs ++ unlines ys := by
  rw [unlines, List.map_append, String.join_append, ← unlines, ← unlines]

theorem unlines_cons (x : String) (xs : List String) :
    unlines (x :: xs) = x ++ "\n" ++ unlines xs := by
  rw [unlines, List.map_cons, String.join_cons, ← unlines]

theorem unlines_singleton (x : String) : unlines [x] = x ++ "\n" := by
  rw [unlines_cons, unlines, List.map_nil, String.join_nil, String.append_empty]

/-- The body of a function is printed statement by statement. -/
theorem Function.bodyText_eq {f : Function} {before after : List Stmt} {s : Stmt}
    (h : f.body = before ++ s :: after) :
    f.bodyText = unlines (Stmt.linesOf 1 before) ++ unlines (s.lines 1) ++
      unlines (Stmt.linesOf 1 after) := by
  rw [bodyText, h, Stmt.linesOf_append, Stmt.linesOf, unlines_append, unlines_append,
    String.append_assoc]

/-! ## Lists of expressions -/

/-- What may stand between the parts of a call. -/
inductive IsGap : String → Prop where
  | none : IsGap ""
  | blank {s : String} (h : IsGap s) : IsGap (" " ++ s)
  | lineEnd {s : String} (h : IsGap s) : IsGap ("\n" ++ s)
  | comment (text : String) {s : String} (htext : '*' ∉ text.toList) (h : IsGap s) :
      IsGap ("/*" ++ text ++ "*/" ++ s)

/-- Expressions are written with one comma between any two neighbours. -/
inductive CommaSeparated : List String → String → Prop where
  | none {gap : String} (h : IsGap gap) : CommaSeparated [] gap
  | last (item : String) {gap gap' : String} (h : IsGap gap) (h' : IsGap gap') :
      CommaSeparated [item] (gap ++ item ++ gap')
  | cons (item : String) {gap gap' next : String} {items : List String} {text : String}
      (h : IsGap gap) (h' : IsGap gap') (rest : CommaSeparated (next :: items) text) :
      CommaSeparated (item :: next :: items) (gap ++ item ++ gap' ++ "," ++ text)

theorem IsGap.append {s t : String} (hs : IsGap s) (ht : IsGap t) : IsGap (s ++ t) := by
  induction hs with
  | none => simpa using ht
  | blank _ ih => rw [String.append_assoc]; exact ih.blank
  | lineEnd _ ih => rw [String.append_assoc]; exact ih.lineEnd
  | comment text htext _ ih => rw [String.append_assoc]; exact ih.comment text htext

theorem isGap_indent : IsGap "    " := IsGap.none.blank.blank.blank.blank

namespace CommaSeparated

theorem after {gap text : String} {items : List String} (hgap : IsGap gap)
    (h : CommaSeparated items text) : CommaSeparated items (gap ++ text) := by
  cases h with
  | none h => exact .none (hgap.append h)
  | last item h h' =>
    simp only [← String.append_assoc]
    exact .last item (hgap.append h) h'
  | cons item h h' rest =>
    simp only [← String.append_assoc]
    exact .cons item (hgap.append h) h' rest

theorem before {gap text : String} {items : List String} (h : CommaSeparated items text)
    (hgap : IsGap gap) : CommaSeparated items (text ++ gap) := by
  induction h with
  | none h => exact .none (h.append hgap)
  | last item h h' =>
    rw [String.append_assoc]
    exact .last item h (h'.append hgap)
  | cons item h h' _ ih =>
    rw [String.append_assoc]
    exact .cons item h h' ih

/-- Two lists, none of them empty, with a comma between them are one list. -/
theorem append {items items' : List String} {text text' : String} (hne : items ≠ [])
    (hne' : items' ≠ []) (h : CommaSeparated items text) (h' : CommaSeparated items' text') :
    CommaSeparated (items ++ items') (text ++ "," ++ text') := by
  induction h with
  | none => exact absurd rfl hne
  | last item hgap hgap' =>
    cases items' with
    | nil => exact absurd rfl hne'
    | cons next rest => exact .cons item hgap hgap' h'
  | @cons item gap gap' next items text hgap hgap' _ ih =>
    have hrest : CommaSeparated (next :: (items ++ items')) (text ++ "," ++ text') :=
      ih (List.cons_ne_nil _ _)
    simpa only [String.append_assoc, List.cons_append] using cons item hgap hgap' hrest

/-- Expressions put together with a comma, each behind something of its own. -/
theorem intercalate {α : Type} {before item : α → String} {gap : String} (hgap : IsGap gap)
    {xs : List α} (h : ∀ x ∈ xs, IsGap (before x)) :
    CommaSeparated (xs.map item)
      (String.intercalate ("," ++ gap) (xs.map fun x => before x ++ item x)) := by
  induction xs with
  | nil => exact .none .none
  | cons x xs ih =>
    have hx := h x List.mem_cons_self
    cases xs with
    | nil => simpa using last (item x) hx .none
    | cons y xs =>
      have hrest := (ih fun z hz => h z (List.mem_cons_of_mem x hz)).after hgap
      simp only [List.map_cons, String.intercalate_cons_cons] at hrest ⊢
      simpa only [String.append_assoc, String.empty_append] using cons (item x) hx .none hrest

end CommaSeparated

/-! ## Calls -/

/-- The expression that is passed for an argument, without the remark before it. -/
def CallArg.expression (a : CallArg) : String :=
  (if a.byAddress then "&" else "") ++ a.operand.text

theorem CallArg.text_eq (a : CallArg) : a.text = a.remark ++ a.expression := by
  rw [text, expression, String.append_assoc]

namespace ProcCall

/-- The expressions that a call passes. -/
def expressions (c : ProcCall) : List String :=
  c.leading.map Expr.text ++ c.args.map CallArg.expression

/-- All that is passed, each with the remark before it. -/
def items (c : ProcCall) : List (String × String) :=
  c.leading.map (fun e => ("", e.text)) ++ c.args.map fun a => (a.remark, a.expression)

theorem map_snd_items (c : ProcCall) : c.items.map Prod.snd = c.expressions := by
  simp [items, expressions, Function.comp_def]

theorem passed_eq (c : ProcCall) : c.passed = c.items.map fun x => x.1 ++ x.2 := by
  simp [passed, items, Function.comp_def, ← CallArg.text_eq]

variable {c : ProcCall}

theorem isGap_of_mem_items (h : ∀ a ∈ c.args, IsGap a.remark) :
    ∀ x ∈ c.items, IsGap x.1 := by
  intro x hx
  rcases List.mem_append.1 hx with hx | hx
  · obtain ⟨e, -, rfl⟩ := List.mem_map.1 hx
    exact .none
  · obtain ⟨a, ha, rfl⟩ := List.mem_map.1 hx
    exact h a ha

/-- What is passed, with a gap behind every comma. -/
theorem commaSeparated_passed (h : ∀ a ∈ c.args, IsGap a.remark) {gap : String}
    (hgap : IsGap gap) :
    CommaSeparated c.expressions (String.intercalate ("," ++ gap) c.passed) := by
  rw [← map_snd_items, passed_eq]
  exact .intercalate hgap (isGap_of_mem_items h)

theorem commaSeparated_inline (h : ∀ a ∈ c.args, IsGap a.remark) :
    CommaSeparated c.expressions
      (String.intercalate "," (c.leadingTexts ++ c.args.map CallArg.text)) := by
  have hargs : CommaSeparated (c.args.map CallArg.expression)
      (String.intercalate "," (c.args.map CallArg.text)) := by
    have htext : CallArg.text = fun a => a.remark ++ a.expression := funext CallArg.text_eq
    rw [htext, ← String.append_empty (s := ",")]
    exact .intercalate .none h
  have hleading : CommaSeparated (c.leading.map Expr.text)
      (String.intercalate ", " (c.leading.map Expr.text)) := by
    have hcomma : ", " = "," ++ (" " ++ "") := by decide
    have hitems : CommaSeparated (c.leading.map Expr.text) (String.intercalate
        ("," ++ (" " ++ "")) (c.leading.map fun e => "" ++ e.text)) :=
      .intercalate IsGap.none.blank fun _ _ => .none
    rw [hcomma]
    simpa using hitems
  rw [expressions, leadingTexts]
  cases hc : c.leading with
  | nil => simpa using hargs
  | cons e es =>
    rw [hc] at hleading
    cases ha : c.args with
    | nil => simpa [ha] using hleading
    | cons a as =>
      rw [ha] at hargs
      simpa using hleading.append (by simp) (by simp) hargs

/-- What is passed, each on a line of its own behind the indentation of an argument. -/
theorem commaSeparated_framed (h : ∀ a ∈ c.args, IsGap a.remark) :
    CommaSeparated c.expressions
      (String.intercalate ",\n" (c.passed.map fun x => "    " ++ x)) := by
  have hcomma : ",\n" = "," ++ "\n" := by decide
  have hitems : c.passed.map (fun x => "    " ++ x) =
      c.items.map fun x => "    " ++ x.1 ++ x.2 := by
    simp [passed_eq, String.append_assoc, Function.comp_def]
  rw [← map_snd_items, hitems, hcomma, ← String.append_empty (s := "\n")]
  exact .intercalate IsGap.none.lineEnd fun x hx => isGap_indent.append (isGap_of_mem_items h x hx)

/-- A call is printed as its function with the expressions that it passes between parentheses. -/
theorem exists_commaSeparated (h : ∀ a ∈ c.args, IsGap a.remark) {pad : String}
    (hpad : IsGap pad) :
    ∃ text, CommaSeparated c.expressions text ∧
      unlines (c.lines pad) = pad ++ c.opening ++ text ++ ");\n" := by
  have hclose : ");\n" = ");" ++ "\n" := by decide
  rw [lines]
  cases c.layout with
  | inline =>
    refine ⟨_, commaSeparated_inline h, ?_⟩
    simp only [unlines_singleton, hclose, String.append_assoc]
  | stacked =>
    have hcomma : ",\n    " = "," ++ ("\n" ++ "    ") := by decide
    refine ⟨_, (commaSeparated_passed h isGap_indent.lineEnd).after isGap_indent.lineEnd, ?_⟩
    rw [unlines_cons, unlines_singleton, hclose, hcomma]
    simp only [String.append_assoc]
  | framed =>
    have hlist := commaSeparated_framed h
    cases hp : c.passed with
    | nil =>
      refine ⟨_, (hlist.before hpad).after IsGap.none.lineEnd, ?_⟩
      simp [hp, unlines, hclose, String.append_assoc]
    | cons x xs =>
      refine ⟨_, (hlist.before hpad.lineEnd).after IsGap.none.lineEnd, ?_⟩
      rw [unlines_cons, unlines_cons, unlines_singleton, hp, hclose]
      simp only [String.append_assoc, String.append_empty]

end ProcCall

end CqlGlue.Code
