import CqlGlue.Proofs.Code.SteadyStatements
import CqlGlue.Proofs.Sqlite.Commented
import CqlGlue.Proofs.Sqlite.Lines

/-!
# Steady wrappers

Where no name begins a literal or a comment, what is always shown of a wrapper is a steady text:
its literals and comments are closed.

## Main definitions
* `Procedure.HasPlainNames` excludes other names.

## Main statements
* `steady_headText` and `isSteadyLine_body` are about the head and the body of a wrapper.
-/

namespace CqlGlue

open Code Text

namespace Code

/-! ## Names -/

/-- A name that begins neither a literal nor a comment and ends no line. -/
abbrev IsPlainName (name : String) : Prop := Text.Lacks ['/', '"', '\'', '\\', '\n'] name

theorem IsPlainName.isSteadyText {name : String} (h : IsPlainName name) : IsSteadyText name :=
  h.mono (by decide)

theorem IsPlainName.isOneLine {name : String} (h : IsPlainName name) : IsOneLine name :=
  h.mono (by decide)

end Code

/-- A procedure whose names are plain. -/
structure Procedure.HasPlainNames (p : Procedure) : Prop where
  name : IsPlainName p.name
  args : ∀ a ∈ p.args, IsPlainName a.name
  columns : ∀ c ∈ p.columns, IsPlainName c.name

namespace SqliteWrapper

/-! ## Steady lines -/

/-- A line that is printed as a steady text where it is always shown. -/
def IsSteadyLine (l : Line) : Prop := l.least = .quiet → Steady (unlines (l.stmt.lines 1))

theorem isSteadyLine_remark {least : Verbosity} (h : least ≠ .quiet) (text : String) :
    IsSteadyLine (remark least text) := fun hleast => absurd hleast h

/-- At the lowest level only what is always shown is left. -/
theorem steady_linesText {ls : List Line} (h : ∀ l ∈ ls, IsSteadyLine l) :
    Steady (linesText 1 .quiet ls) := by
  refine steady_linesOf fun s hs => ?_
  obtain ⟨l, hl, rfl⟩ := List.mem_map.1 hs
  obtain ⟨hl, hleast⟩ := List.mem_filter.1 hl
  refine h l hl ?_
  cases hl : l.least <;> simp_all [Verbosity.atLeast, Verbosity.rank]

variable {p : Procedure} {a : Argument}

theorem isSteadyText_storage (a : Argument) : IsSteadyText a.storage := by
  cases ht : a.type <;> cases hn : a.isNotNull <;>
    simp only [Argument.storage, ht, hn, CoreType.storage, CoreType.cType,
      CoreType.nullableCType] <;> exact .ofList (by decide)

theorem isSteadyText_typeName (t : CoreType) : IsSteadyText t.name := by
  cases t <;> exact .ofList (by decide)

theorem isSteadyText_valueReader (a : Argument) : IsSteadyText (valueReader a) := by
  simp only [valueReader, lacks_append]
  refine ⟨⟨⟨.ofList (by decide), ?_⟩, isSteadyText_typeName _⟩, .ofList (by decide)⟩
  split
  · decide
  · split <;> exact .ofList (by decide)

theorem isSteadyText_resultWriter (a : Argument) : IsSteadyText (resultWriter a) := by
  cases ht : a.type <;> cases hn : a.isNotNull <;> simp only [resultWriter, ht, hn] <;>
    exact .ofList (by decide)

theorem isSteadyText_releaser (t : CoreType) : IsSteadyText (releaser t) := by
  cases t <;> exact .ofList (by decide)

theorem isSteadyText_dataType (t : CoreType) : IsSteadyText t.dataType := by
  cases t <;> exact .ofList (by decide)

theorem steady_nullResult (level : ℕ) : Steady (unlines (nullResult.lines level)) := by
  refine Stmt.steady_perform level ?_
  simp only [Expr.IsPlain, Expr.ArePlain]
  decide

/-- The error for wrong arguments has a literal. -/
theorem steady_error : Steady (unlines ((Stmt.perform (.call "sqlite3_result_error"
    [.name "context", .name "\"CQL extension: Invalid procedure arguments\"",
      .name "-1"])).lines 1)) := by
  have hquoted : "\"CQL extension: Invalid procedure arguments\"" =
      "\"" ++ "CQL extension: Invalid procedure arguments" ++ "\"" := by decide
  have hliteral : Steady "\"CQL extension: Invalid procedure arguments\"" := by
    rw [hquoted]
    exact .literal (.ofList (by decide))
  have hargs : Steady (String.intercalate ", "
      ["context", "\"CQL extension: Invalid procedure arguments\"", "-1"]) :=
    ((((Steady.plain (by decide)).append (.plain (by decide))).append hliteral).append
      (.plain (by decide))).append (.plain (by decide))
  have hopen : Steady ("sqlite3_result_error" ++ "(") := .plain (by decide)
  have hclose : Steady ")" := .plain (by decide)
  rw [Stmt.lines]
  simp only [Expr.text, Expr.texts, unlines_singleton]
  exact (((Steady.plain (by decide)).append ((hopen.append hargs).append hclose)).append
    (.plain (by decide))).append (.plain (by decide))

theorem steady_outputVariable (hname : IsPlainName a.name) :
    Steady (unlines ((outputVariable a).lines 1)) := by
  refine Stmt.steady_declare 1 (isSteadyText_storage _) hname.isSteadyText ?_
  change (if a.type.isRef then Start.value (.name "NULL")
    else if a.isNotNull then .value (.name "0") else .null).IsPlain
  split
  · simp only [Start.IsPlain, Expr.IsPlain]
    decide
  · split <;> simp only [Start.IsPlain, Expr.IsPlain]
    decide

theorem IsSideLine.isSteadyLine {l : Line} (h : IsSideLine p l) (hnames : p.HasPlainNames) :
    IsSteadyLine l := by
  have hargs : ∀ a ∈ p.args, IsSteadyText a.name := fun a ha => (hnames.args a ha).isSteadyText
  cases h with
  | remark hleast text => exact fun hquiet => absurd hquiet hleast
  | blank => exact fun _ => Stmt.steady_blank 1
  | clear =>
    refine fun _ => Stmt.steady_assign 1 ?_ ?_ <;> simp only [Expr.IsPlain] <;> decide
  | output ha => exact fun _ => steady_outputVariable (hnames.args _ ha)
  | code =>
    refine fun _ => Stmt.steady_declare 1 (by decide) (by decide) ?_
    simp only [Start.IsPlain, Expr.IsPlain]
    decide
  | database =>
    refine fun _ => Stmt.steady_declare 1 (by decide) (by decide) ?_
    simp only [Start.IsPlain, Expr.IsPlain, Expr.ArePlain]
    decide
  | place =>
    refine fun _ => Stmt.steady_declare 1
      (lacks_append.2 ⟨hnames.name.isSteadyText, by decide⟩)
      (by decide : IsSteadyText "_data_result_set_") ?_
    simp only [Start.IsPlain, Expr.IsPlain]
    decide
  | release ha =>
    refine fun _ => Stmt.steady_perform 1 ?_
    simp only [Expr.IsPlain, Expr.ArePlain]
    exact ⟨isSteadyText_releaser _, hargs _ ha, trivial⟩
  | failure silent =>
    refine fun _ => Stmt.steady_block 1 ?_ ?_
    · simp only [Expr.IsPlain]
      decide
    · have hjump : Steady (unlines ((Stmt.jump goodExit).lines (1 + 1))) :=
        Stmt.steady_jump _ (by decide)
      cases silent <;> simp [hjump, steady_nullResult]
  | table =>
    refine fun _ => Stmt.steady_assign 1 ?_ ?_ <;> simp only [Expr.IsPlain] <;> decide
  | scalar ha =>
    refine fun _ => Stmt.steady_perform 1 ?_
    simp only [Expr.IsPlain, Expr.ArePlain]
    exact ⟨isSteadyText_resultWriter _, by decide, hargs _ ha, trivial⟩
  | null => exact fun _ => steady_nullResult 1
  | finish => exact fun _ => Stmt.steady_jump 1 (by decide)
  | exit hname =>
    have hsteady : ∀ name ∈ [badExit, goodExit], IsSteadyText name := by decide
    exact fun _ => Stmt.steady_label 1 (hsteady _ hname)
  | error => exact fun _ => steady_error
  | leave => exact fun _ => Stmt.steady_leave 1
  | releaseSet ha =>
    refine fun _ => Stmt.steady_performWhen 1 ?_ ?_ <;> simp only [Expr.IsPlain, Expr.ArePlain]
    · exact hargs _ ha
    · exact ⟨isSteadyText_releaser _, hargs _ ha, trivial⟩
  | idle => exact fun hquiet => absurd hquiet (by decide)

theorem isSteadyLine_checkCount : ∀ l ∈ checkCount p, IsSteadyLine l := by
  simp only [checkCount, List.forall_mem_cons]
  refine ⟨isSteadyLine_remark (by decide) _,
    fun _ => Stmt.steady_jumpWhen 1 ?_ (by decide) (.inl rfl), fun _ => Stmt.steady_blank 1,
    by simp⟩
  simp only [Expr.IsPlain]
  exact ⟨by decide, isSteadyText_toString _⟩

theorem isSteadyLine_checkTypes (hargs : ∀ a ∈ p.args, IsPlainName a.name) :
    ∀ l ∈ checkTypes p, IsSteadyLine l := by
  simp only [checkTypes, List.forall_mem_append, List.forall_mem_map, List.forall_mem_cons]
  refine ⟨⟨⟨isSteadyLine_remark (by decide) _, by simp⟩, fun a ha _ => ?_⟩,
    fun _ => Stmt.steady_blank 1, by simp⟩
  have hname := hargs a.1 (List.mem_of_mem_filter (List.fst_mem_of_mem_zipIdx ha))
  have hspace : " // " ++ a.1.name = " //" ++ (" " ++ a.1.name) := by
    have hslashes : " // " = " //" ++ " " := by decide
    rw [hslashes, String.append_assoc]
  refine Stmt.steady_jumpWhen 1 ?_ (by decide) (.inr ⟨_, hspace, ?_⟩)
  · simp only [Expr.IsPlain, Expr.ArePlain]
    refine ⟨.ofList (by decide), ⟨.ofList (by decide), by decide, trivial⟩,
      isSteadyText_dataType _, ?_, trivial⟩
    split <;> decide
  · exact lacks_append.2 ⟨by decide, hname.isOneLine⟩

theorem isSteadyLine_argumentVariables (hargs : ∀ a ∈ p.args, IsPlainName a.name) :
    ∀ l ∈ argumentVariables p, IsSteadyLine l := by
  simp only [argumentVariables, List.forall_mem_append, List.forall_mem_map, List.forall_mem_cons]
  refine ⟨⟨⟨⟨isSteadyLine_remark (by decide) _, by simp⟩, fun a ha _ => ?_⟩,
    fun a ha _ => steady_outputVariable (hargs a (List.mem_of_mem_filter ha))⟩,
    fun _ => Stmt.steady_blank 1, by simp⟩
  have hname := hargs a.1 (List.mem_of_mem_filter (List.fst_mem_of_mem_zipIdx ha))
  refine Stmt.steady_declare 1 (isSteadyText_storage _) hname.isSteadyText ?_
  simp only [Start.IsPlain, Expr.IsPlain, Expr.ArePlain]
  exact ⟨isSteadyText_valueReader _, by decide, trivial⟩

/-- What is passed for an argument, the comment for one that cannot be passed included. -/
theorem steady_callArg (hname : IsPlainName a.name) : Steady (callArg a).text := by
  have hvalue : ∀ byAddress, Steady (CallArg.text ⟨"", byAddress, .value (.name a.name)⟩) := by
    intro byAddress
    refine .plain ?_
    simp only [CallArg.text, Operand.text, Expr.text, lacks_append]
    refine ⟨⟨by decide, ?_⟩, hname.isSteadyText⟩
    cases byAddress
    · exact (by decide : IsSteadyText "")
    · exact (by decide : IsSteadyText "&")
  have hunsupported : Steady (CallArg.text ⟨"", false, .unsupported
      "/* unsupported arg type object*/"⟩) := by
    have htext : CallArg.text ⟨"", false, .unsupported "/* unsupported arg type object*/"⟩ =
        "/*" ++ " unsupported arg type object" ++ "*/" := by decide
    rw [htext]
    exact .comment (by decide)
  cases hb : a.binding <;> cases ht : a.type <;> simp only [callArg, hb, ht]
  all_goals first | exact hunsupported | exact hvalue _

theorem isSteadyLine_performCall (hname : IsPlainName p.name)
    (hargs : ∀ a ∈ p.args, IsPlainName a.name) : ∀ l ∈ performCall p, IsSteadyLine l := by
  simp only [performCall, List.forall_mem_cons]
  refine ⟨isSteadyLine_remark (by decide) _, fun _ => Stmt.steady_call 1 rfl ?_ ?_,
    fun _ => Stmt.steady_blank 1, by simp⟩
  · refine lacks_append.2 ⟨hname.isSteadyText, ?_⟩
    cases p.hasProjection <;> decide
  · have hpassed : (call p).passed = (call p).leading.map Expr.text ++
        (p.args.map callArg).map CallArg.text := rfl
    simp only [hpassed, List.forall_mem_append, List.forall_mem_map]
    refine ⟨?_, fun a ha => steady_callArg (hargs a ha)⟩
    have hleading : (call p).leading = (if p.usesDatabase then [Expr.name "db"] else []) ++
      (if p.hasProjection then [Expr.address (.name "_data_result_set_")] else []) := rfl
    have hdatabase : Steady (Expr.text (.name "db")) := .plain (by rw [Expr.text]; decide)
    have hplace : Steady (Expr.text (.address (.name "_data_result_set_"))) :=
      .plain (by rw [Expr.text, Expr.text]; decide)
    rw [hleading]
    cases p.usesDatabase <;> cases p.hasProjection <;> simp [hdatabase, hplace]

theorem isSteadyLine_body (h : p.HasPlainNames) : ∀ l ∈ body p, IsSteadyLine l := by
  intro l hl
  simp only [body, List.mem_append] at hl
  rcases hl with (((((((((hl | hl) | hl) | hl) | hl) | hl) | hl) | hl) | hl) | hl) | hl
  · exact (isSideLine_clearResult l hl).isSteadyLine h
  · exact isSteadyLine_checkCount l hl
  · exact isSteadyLine_checkTypes h.args l hl
  · exact isSteadyLine_argumentVariables h.args l hl
  · exact (isSideLine_dependencies l hl).isSteadyLine h
  · exact isSteadyLine_performCall h.name h.args l hl
  · exact (isSideLine_releaseInputs l hl).isSteadyLine h
  · exact (isSideLine_checkCode l hl).isSteadyLine h
  · exact (isSideLine_giveResult l hl).isSteadyLine h
  · exact (isSideLine_rejection l hl).isSteadyLine h
  · exact (isSideLine_release l hl).isSteadyLine h

/-! ## Heads -/

theorem isOneLine_sqlType (t : CoreType) (notNull : Bool) : IsOneLine (sqlType t notNull) := by
  have hname : IsOneLine t.name := by cases t <;> exact .ofList (by decide)
  refine lacks_append.2 ⟨hname, ?_⟩
  cases notNull <;> decide

theorem isOneLine_declared {name : String} (h : IsPlainName name) (t : CoreType) (notNull : Bool) :
    IsOneLine (declared name t notNull) := by
  simp only [declared, lacks_append]
  exact ⟨⟨⟨by decide, h.isOneLine⟩, by decide⟩, isOneLine_sqlType t notNull⟩

theorem isOneLine_signatureResult (h : p.HasPlainNames) : IsOneLine (signatureResult p) := by
  rw [signatureResult]
  split
  · simp only [lacks_append]
    refine ⟨⟨by decide, lacks_intercalate (by decide) ?_⟩, by decide⟩
    exact List.forall_mem_map.2 fun c hc => isOneLine_declared (h.columns c hc) _ _
  · split
    · exact isOneLine_sqlType _ _
    · decide

/-- A signature is a comment. -/
theorem steady_signature {name : String} (hname : IsPlainName name) (h : p.HasPlainNames) :
    Steady (signature name p ++ "\n") := by
  have htext : signature name p ++ "\n" = "//" ++ (" SELECT FUNC " ++ name ++ "(" ++
      String.intercalate ", " (signatureParams p) ++ ") " ++ signatureResult p ++ ";") ++ "\n" := by
    have hslashes : "// SELECT FUNC " = "//" ++ " SELECT FUNC " := by
      rw [← String.toList_inj, String.toList_append]
      rfl
    unfold signature
    simp only [hslashes, String.append_assoc]
  rw [htext]
  refine .lineComment ?_
  simp only [lacks_append]
  refine ⟨⟨⟨⟨⟨⟨by decide, hname.isOneLine⟩, by decide⟩, lacks_intercalate (by decide) ?_⟩,
    by decide⟩, isOneLine_signatureResult h⟩, by decide⟩
  exact List.forall_mem_map.2 fun a ha =>
    isOneLine_declared (h.args a (List.mem_of_mem_filter ha)) _ _

theorem linesText_signature (v : Verbosity) (name : String) (p : Procedure) :
    linesText 0 v [remark .quiet (signature name p)] = signature name p ++ "\n" := by
  rw [Commented.linesText_remark, if_pos (by cases v <;> decide)]
  rfl

/-- The comment about an object that is passed over. -/
def passedOverText (a : Argument) : String :=
  "/* object not implemented yet, skipping outtie arg " ++ a.name ++ " */"

theorem scan_passedOver (v : Verbosity) (h : IsPlainName a.name) :
    scan .start (linesText 0 v [remark .normal (passedOverText a)]) = (.start, []) := by
  have htext : passedOverText a = "/*" ++
      (" object not implemented yet, skipping outtie arg " ++ a.name ++ " ") ++ "*/" := by
    have hopen : "/* object not implemented yet, skipping outtie arg " =
        "/*" ++ " object not implemented yet, skipping outtie arg " := by
      rw [← String.toList_inj, String.toList_append]
      rfl
    have hclose : " */" = " " ++ "*/" := by decide
    unfold passedOverText
    simp only [hopen, hclose, String.append_assoc]
  have hchars : Lacks ['/', '\\']
      (" object not implemented yet, skipping outtie arg " ++ a.name ++ " ") := by
    simp only [lacks_append]
    exact ⟨⟨.ofList (by decide), h.mono (by decide)⟩, by decide⟩
  rw [Commented.linesText_remark]
  split
  · have hindent : Stmt.indent 0 = "" := rfl
    rw [htext, hindent, String.empty_append]
    exact scan_comment hchars
  · rfl

theorem scan_passedOvers (v : Verbosity) {xs : List Argument}
    (h : ∀ a ∈ xs, IsPlainName a.name) :
    scan .start (linesText 0 v (xs.map fun a => remark .normal (passedOverText a))) =
      (.start, []) := by
  induction xs with
  | nil => rfl
  | cons a xs ih =>
    have hcons : (a :: xs).map (fun a => remark .normal (passedOverText a)) =
        [remark .normal (passedOverText a)] ++
          xs.map fun a => remark .normal (passedOverText a) := rfl
    rw [hcons, linesText_append, scan_append_of_nil _ (getLast?_linesText 0 v _)
      (scan_passedOver v (h a List.mem_cons_self))]
    exact ih fun b hb => h b (List.mem_cons_of_mem a hb)

/-- A head is the comments about objects that are passed over, and what is always shown. -/
theorem headText_eq (v : Verbosity) (name : String) (p : Procedure) :
    headText v name p =
      linesText 0 v ((passedOver p).map fun a => remark .normal (passedOverText a)) ++
        headText .quiet name p := by
  have hpreface : ∀ v, linesText 0 v (preface name p) =
      linesText 0 v ((passedOver p).map fun a => remark .normal (passedOverText a)) ++
        (signature name p ++ "\n") := by
    intro v
    rw [← linesText_signature v, ← linesText_append]
    rfl
  have hquiet : linesText 0 .quiet ((passedOver p).map fun a =>
      remark .normal (passedOverText a)) = "" := by
    have hshown : shown .quiet ((passedOver p).map fun a =>
        remark .normal (passedOverText a)) = [] := by
      simp [shown, remark, Verbosity.atLeast, Verbosity.rank]
    rw [linesText, hshown]
    rfl
  rw [headText, headText, hpreface, hpreface .quiet, hquiet, String.empty_append,
    String.append_assoc]

theorem scan_headText (v : Verbosity) (name : String) (h : p.HasPlainNames) :
    scan .start (headText v name p) = scan .start (headText .quiet name p) := by
  have hargs : ∀ a ∈ passedOver p, IsPlainName a.name := fun a ha =>
    h.args a (List.mem_of_mem_filter ((List.takeWhile_sublist _).subset ha))
  rw [headText_eq]
  exact scan_append_of_nil _ (getLast?_linesText 0 v _) (scan_passedOvers v hargs)

theorem steady_headText {name : String} (hname : IsPlainName name) (h : p.HasPlainNames) :
    Steady (headText .quiet name p) := by
  have hquiet : shown .quiet (preface name p) = [.note (signature name p)] := by
    simp [preface, shown, remark, Verbosity.atLeast, Verbosity.rank]
  have hpreface : linesText 0 .quiet (preface name p) = signature name p ++ "\n" := by
    rw [← linesText_signature .quiet, linesText, hquiet]
    rfl
  rw [headText, hpreface]
  refine (steady_signature hname h).append (.plain ?_)
  simp only [symbol, lacks_append]
  refine ⟨⟨⟨⟨⟨by decide, by decide, hname.isSteadyText⟩, by decide⟩, ?_⟩, by decide⟩, by decide⟩
  refine lacks_intercalate (by decide) ?_
  rw [params, List.forall_mem_map]
  split
  · simp only [List.forall_mem_cons]
    exact ⟨by decide, by decide, by decide, by decide, by simp⟩
  · simp only [List.forall_mem_cons]
    exact ⟨by decide, by decide, by decide, by simp⟩

end SqliteWrapper

end CqlGlue
