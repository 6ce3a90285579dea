import CqlGlue.Proofs.Sqlite.SteadyWrapper

/-!
# Verbosity and lexemes

What a verbosity shows of an extension besides its code are comments, with one exception: the
empty statement that ends each wrapper is hidden at the lowest level along with the comment that
explains it. There the label before it has no statement.

## Main definitions
* `SqliteExtension.HasPlainNames` excludes names that open a literal or a comment.

## Main statements
* `SqliteExtension.lexemes_text` are the lexemes of a file at a level.
* `SqliteExtension.lexemes_text_eq_iff`: which levels have the same lexemes.
-/

namespace CqlGlue

open Code Text

namespace SqliteWrapper

variable {p : Procedure}

/-! ## Wrappers -/

/-- What is always shown of a wrapper, but for its closing brace. -/
def openText (name : String) (p : Procedure) : String :=
  headText .quiet name p ++ linesText 1 .quiet (unended p)

theorem steady_openText {name : String} (hname : IsPlainName name) (h : p.HasPlainNames) :
    Steady (openText name p) := by
  have hlines : ∀ l ∈ unended p, IsSteadyLine l := by
    intro l hl
    apply isSteadyLine_body h
    rw [body_eq_unended]
    exact List.mem_append_left _ hl
  exact (steady_headText hname h).append (steady_linesText hlines)

theorem scan_openText (v : Verbosity) {name : String} (hname : IsPlainName name)
    (h : p.HasPlainNames) :
    scan .start (headText v name p ++ linesText 1 v (unended p)) =
      (.start, lexemes (openText name p)) := by
  have hhead := (steady_headText hname h).scan_start
    (atLineStart_scan _ (endsLine_headText .quiet name p))
  have hbody := ((Commented.unended p).readsAlike v .quiet).scan .start (.inl rfl)
  have hopen : scan .start (headText v name p ++ linesText 1 v (unended p)) =
      scan .start (openText name p) := by
    unfold openText
    rw [scan_append_of_endsLine .start _ (endsLine_headText v name p),
      scan_append_of_endsLine .start _ (endsLine_headText .quiet name p),
      scan_headText v name h, hhead, hbody.1]
  have hline := ((ReadsAlike.of_endsLine (endsLine_headText .quiet name p)).append
    ((Commented.unended p).readsAlike .quiet .quiet)).scan .start (.inl rfl)
  exact hopen.trans (scan_eq_lexemes ((steady_openText hname h).scan_start hline.2))

/-- The lexemes at the end of a wrapper: at all levels but the lowest, an empty statement precedes
the closing brace. -/
def endLexemes (v : Verbosity) : List Lexeme :=
  (if v = .quiet then [] else [.token ";"]) ++ [.token "\x7d"]

theorem length_endLexemes_eq_iff {v w : Verbosity} :
    (endLexemes v).length = (endLexemes w).length ↔ (v = .quiet ↔ w = .quiet) := by
  cases v <;> cases w <;> decide

theorem scan_endText (v : Verbosity) :
    scan .start (endText v ++ "\x7d\n" ++ "\n") = (.start, endLexemes v) := by
  have hquiet : endText .quiet = "" := by
    simp [endText, linesText, shown, Verbosity.atLeast, Verbosity.rank, Stmt.linesOf, unlines]
  have hidle : unlines (Stmt.linesOf 1 [.idle "Avoid empty block warning"]) =
      "  /* Avoid empty block warning */ ;\n" := by
    rw [Stmt.linesOf, Stmt.linesOf, Stmt.lines]
    decide +kernel
  have hshown : ∀ v, v ≠ .quiet → endText v = "  /* Avoid empty block warning */ ;\n" := by
    intro v hv
    rw [← hidle, endText, linesText]
    cases v <;> first | exact absurd rfl hv | rfl
  by_cases hv : v = .quiet
  · subst hv
    rw [hquiet]
    decide +kernel
  · rw [hshown v hv, endLexemes, if_neg hv]
    decide +kernel

theorem scan_text (v : Verbosity) {name : String} (hname : IsPlainName name)
    (h : p.HasPlainNames) :
    scan .start (text v name p) = (.start, lexemes (openText name p) ++ endLexemes v) := by
  have hlast := ((ReadsAlike.of_endsLine (endsLine_headText v name p)).append
    ((Commented.unended p).readsAlike v v)).left
  have htext : text v name p = (headText v name p ++ linesText 1 v (unended p)) ++
      (endText v ++ "\x7d\n" ++ "\n") := by
    rw [text_eq]
    simp only [String.append_assoc]
  rw [htext, scan_append .start _ hlast, scan_openText v hname h, scan_endText]

end SqliteWrapper

namespace SqliteExtension

/-! ## Files -/

/-- A file in which no name opens a literal or a comment. -/
structure HasPlainNames (o : Options) (s : Schema) : Prop where
  source : IsOneLine o.source
  header : Lacks ['"', '\\', '\n'] o.cqlHeader
  namePrefix : ∀ name ∈ o.namePrefix, IsPlainName name
  procedures : ∀ p ∈ s.wrapped, p.HasPlainNames

variable {o : Options} {s : Schema}

theorem isPlainName_sqlName (h : ∀ name ∈ o.namePrefix, IsPlainName name) {p : Procedure}
    (hp : IsPlainName p.name) : IsPlainName (sqlName o p) := by
  rw [sqlName]
  split
  next namePrefix hsome =>
    simp only [lacks_append]
    exact ⟨⟨h _ hsome, by decide⟩, hp⟩
  next => exact hp

theorem steady_include {header : String}
    (h : Lacks ['"', '\\', '\n'] header) :
    Steady ("#include \"" ++ header ++ "\"\n") := by
  have hopen : "#include \"" = "#include " ++ "\"" := by decide
  have hclose : "\"\n" = "\"" ++ "\n" := by decide
  have htext : "#include \"" ++ header ++ "\"\n" =
      "#include " ++ ("\"" ++ header ++ "\"") ++ "\n" := by
    simp only [hopen, hclose, String.append_assoc]
  rw [htext]
  exact ((Steady.plain (by decide)).append (.literal h)).append (.plain (by decide))

theorem steady_bannerText (hsource : IsOneLine o.source)
    (hheader : Lacks ['"', '\\', '\n'] o.cqlHeader) :
    Steady (bannerText o) := by
  have hgenerated : "// Generated by cqlgen from " = "//" ++ " Generated by cqlgen from " := by
    decide +kernel
  have hblank : "\n\n" = "\n" ++ "\n" := by decide
  have hquote : "\"\n\n" = "\"\n" ++ "\n" := by decide
  have hruntime : "#include \"cqlrt.h\"\n" = "#include \"" ++ "cqlrt.h" ++ "\"\n" := by decide
  have hextension : "#include \"cql_sqlite_extension.h\"\n" =
      "#include \"" ++ "cql_sqlite_extension.h" ++ "\"\n" := by decide +kernel
  have htext : bannerText o =
      ("//" ++ (" Generated by cqlgen from " ++ o.source) ++ "\n") ++ ("\n" ++
        ("#ifdef CQL_SQLITE_EXT\n" ++ ("#include <sqlite3ext.h>\n" ++ ("SQLITE_EXTENSION_INIT1\n" ++
          ("#endif\n" ++ (("#include \"" ++ "cqlrt.h" ++ "\"\n") ++
            (("#include \"" ++ "cql_sqlite_extension.h" ++ "\"\n") ++
              (("#include \"" ++ o.cqlHeader ++ "\"\n") ++ "\n")))))))) := by
    unfold bannerText
    simp only [hgenerated, hblank, hquote, hruntime, hextension, String.append_assoc]
  rw [htext]
  refine (Steady.lineComment ?_).append ((Steady.plain (by decide)).append
    ((Steady.plain (by decide)).append ((Steady.plain (by decide)).append
      ((Steady.plain (by decide)).append ((Steady.plain (by decide)).append
        ((steady_include (by decide)).append ((steady_include (by decide)).append
          ((steady_include hheader).append (.plain (by decide))))))))))
  exact lacks_append.2 ⟨by decide, hsource⟩

theorem scan_wrappers (o : Options) {ps : List Procedure}
    (hnames : ∀ name ∈ o.namePrefix, IsPlainName name) (h : ∀ p ∈ ps, p.HasPlainNames)
    (v : Verbosity) :
    scan .start (String.join (ps.map fun p => SqliteWrapper.text v (sqlName o p) p)) =
      (.start, ps.flatMap fun p => lexemes (SqliteWrapper.openText (sqlName o p) p) ++
        SqliteWrapper.endLexemes v) := by
  induction ps with
  | nil => rfl
  | cons p ps ih =>
    have hp := h p List.mem_cons_self
    have hlast := (SqliteWrapper.text_readsAlike (v := v) Iff.rfl (sqlName o p) p).left
    rw [List.map_cons, String.join_cons, scan_append .start _ hlast,
      SqliteWrapper.scan_text v (isPlainName_sqlName hnames hp.name) hp,
      ih fun q hq => h q (List.mem_cons_of_mem p hq)]
    rfl

theorem length_flatMap_append {α β : Type} (xs : List α) (f : α → List β) (ys : List β) :
    (xs.flatMap fun x => f x ++ ys).length = (xs.flatMap f).length + xs.length * ys.length := by
  induction xs with
  | nil => simp
  | cons x xs ih =>
    simp only [List.flatMap_cons, List.length_append, List.length_cons, ih, Nat.succ_mul]
    omega

/-- The lexemes of a file: at all levels but the lowest, an empty statement ends each wrapper. -/
theorem lexemes_text (h : HasPlainNames o s) (v : Verbosity) :
    lexemes (text { o with verbosity := v } s) =
      lexemes (bannerText o) ++
        ((ordered s).flatMap fun p => lexemes (SqliteWrapper.openText (sqlName o p) p) ++
          SqliteWrapper.endLexemes v) ++
        lexemes (initializerText o s) := by
  have hbanner := (steady_bannerText h.source h.header).scan_start
    (atLineStart_scan _ (endsLine_bannerText o))
  have hordered : ∀ p ∈ ordered s, p.HasPlainNames := fun p hp =>
    h.procedures p (List.mem_mergeSort.1 hp)
  have hwrappers : scan .start (wrappersText { o with verbosity := v } s) = _ :=
    scan_wrappers o h.namePrefix hordered v
  have hlast : (wrappersText { o with verbosity := v } s).toList.getLast? ≠ some '\\' :=
    (ReadsAlike.join fun p _ => SqliteWrapper.text_readsAlike (v := v) Iff.rfl (sqlName o p) p).left
  rw [text_eq_banner, String.append_assoc,
    lexemes_append _ (endsLine_bannerText o).getLast?_ne hbanner,
    lexemes_append _ hlast (by rw [hwrappers]), lexemes_of_scan hwrappers, List.append_assoc]

/-- The levels but the lowest have the same lexemes in a file. Where no name opens a literal or a
comment, the lowest has others, unless the file has no wrappers. -/
theorem lexemes_text_eq_iff (o : Options) (s : Schema) (v w : Verbosity) :
    ((v = .quiet ↔ w = .quiet) →
      lexemes (text { o with verbosity := v } s) = lexemes (text { o with verbosity := w } s)) ∧
    (HasPlainNames o s →
      (lexemes (text { o with verbosity := v } s) = lexemes (text { o with verbosity := w } s) ↔
        (v = .quiet ↔ w = .quiet) ∨ s.wrapped = [])) := by
  refine ⟨lexemes_text_congr o s, fun h => ⟨fun heq => ?_, ?_⟩⟩
  · by_contra hne
    rw [not_or] at hne
    obtain ⟨hlevel, hnone⟩ := hne
    -- all else is the same, so the lexemes at the ends are as many at both levels
    have hlength := congrArg List.length heq
    rw [lexemes_text h, lexemes_text h] at hlength
    rw [List.length_append, List.length_append, List.length_append, List.length_append,
      length_flatMap_append, length_flatMap_append] at hlength
    have hend : ((ordered s).length * (SqliteWrapper.endLexemes v).length) =
        (ordered s).length * (SqliteWrapper.endLexemes w).length := by omega
    have hpos : 0 < (ordered s).length := by
      rw [ordered, List.length_mergeSort]
      exact List.length_pos_iff.2 hnone
    exact hlevel (SqliteWrapper.length_endLexemes_eq_iff.1 (Nat.eq_of_mul_eq_mul_left hpos hend))
  · rintro (hlevel | hnone)
    · exact lexemes_text_congr o s hlevel
    · have hordered : ordered s = [] := by rw [ordered, hnone, List.mergeSort_nil]
      have hnil : ∀ v, lexemes (text { o with verbosity := v } s) =
          lexemes (bannerText o) ++ lexemes (initializerText o s) := fun v => by
        rw [lexemes_text h, hordered, List.flatMap_nil, List.append_nil]
      rw [hnil v, hnil w]

/-- A procedure that gives nothing back. -/
def tick : Procedure :=
  ⟨"tick", [⟨"a", .integer, true, .inOnly, none, false⟩], none, [], some false, false⟩

/-- In a file with a wrapper the lowest level has other lexemes than the next one. -/
theorem lexemes_text_tick :
    let o : Options := ⟨"schema.json", "cqlrt.h", none, .quiet⟩
    let s : Schema := ⟨[], [], [], [], [], [tick]⟩
    (Verbosity.normal = .quiet ↔ Verbosity.debug = .quiet) ∧ HasPlainNames o s ∧
      lexemes (text { o with verbosity := .normal } s) =
        lexemes (text { o with verbosity := .debug } s) ∧
      lexemes (text { o with verbosity := .quiet } s) ≠
        lexemes (text { o with verbosity := .normal } s) := by
  have hlevels : Verbosity.normal = .quiet ↔ Verbosity.debug = .quiet := by decide
  have hwrapped : ∀ p ∈ (⟨[], [], [], [], [], [tick]⟩ : Schema).wrapped, p = tick := by
    intro p hp
    simpa [Schema.procedures] using List.mem_of_mem_filter hp
  have hnames : HasPlainNames ⟨"schema.json", "cqlrt.h", none, .quiet⟩
      ⟨[], [], [], [], [], [tick]⟩ := by
    refine ⟨by decide, by decide, by simp, fun p hp => ?_⟩
    rw [hwrapped p hp]
    exact ⟨by decide, by decide, by decide⟩
  have htick : (⟨[], [], [], [], [], [tick]⟩ : Schema).wrapped ≠ [] :=
    List.ne_nil_of_mem (List.mem_filter.2 ⟨List.mem_cons_self, rfl⟩)
  refine ⟨hlevels, hnames, (lexemes_text_eq_iff _ _ .normal .debug).1 hlevels, fun h => ?_⟩
  rcases ((lexemes_text_eq_iff _ _ .quiet .normal).2 hnames).1 h with hlevel | hnone
  · exact absurd hlevel (by decide)
  · exact htick hnone

end SqliteExtension

end CqlGlue
