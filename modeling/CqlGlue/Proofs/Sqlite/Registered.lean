import CqlGlue.Proofs.Code.Heads
import CqlGlue.Proofs.Sqlite.Commented
import Mathlib.Data.List.Forall2
import Mathlib.Data.List.Nodup
import Mathlib.Data.String.Basic

/-!
# Wrappers and their registrations

The wrappers of a file come by the names of their procedures, the registrations in the order of
the schema. Both are made from the procedures that are not suppressed, one each, so every wrapper
is registered and nothing else is. A wrapper is told by the head of its function in the file, a
registration by the statement that makes it: a table valued function is registered by
`register_cql_rowset_tvf`, any other one by `sqlite3_create_function`. Sorting is stable and looks
at names alone; where these differ, the order in which a schema lists its procedures does not show
in the wrappers.

## Main definitions
* `IsByName` says that procedures come by name, those of one name in the order they had.
* `Wrapper` is what a wrapper and its registration agree on, `Wrapper.DefinedBy` and
  `Wrapper.RegisteredBy` are the texts that define and register one.
* `Registers` says what ties the wrappers of a file to its registrations.

## Main statements
* `isByName_ordered`: the procedures with wrappers come by name.
* `ordered_congr`: distinct names leave a single order.
* `registers_wrappers`: what is defined is what is registered.
-/

namespace CqlGlue.SqliteExtension

open Code

variable {o : Options} {s s' : Schema}

/-! ## The order of wrappers -/

/-- Procedures come by name, those of one name in the order they have in another list. -/
structure IsByName (ps ordered : List Procedure) : Prop where
  perm : ordered.Perm ps
  sorted : ordered.Pairwise fun a b => a.name ≤ b.name
  stable : ∀ name, ordered.filter (·.name == name) = ps.filter (·.name == name)

/-- What the order of procedures compares. -/
theorem not_lt_iff_le (a b : Procedure) :
    (!(decide (b.name < a.name))) = true ↔ a.name ≤ b.name := by
  rw [Bool.not_eq_true', decide_eq_false_iff_not, not_lt]

theorem trans_byName (a b c : Procedure) (hab : !(decide (b.name < a.name)))
    (hbc : !(decide (c.name < b.name))) : !(decide (c.name < a.name)) := by
  rw [not_lt_iff_le] at hab hbc ⊢
  exact hab.trans hbc

theorem total_byName (a b : Procedure) :
    !(decide (b.name < a.name)) || !(decide (a.name < b.name)) := by
  rw [Bool.or_eq_true, not_lt_iff_le, not_lt_iff_le]
  exact le_total a.name b.name

/-- Procedures of one name keep their order. -/
theorem filter_ordered_eq (s : Schema) (name : String) :
    (ordered s).filter (·.name == name) = s.wrapped.filter (·.name == name) := by
  have hperm : ((ordered s).filter (·.name == name)).Perm (s.wrapped.filter (·.name == name)) :=
    (List.mergeSort_perm s.wrapped _).filter _
  have hsame : (s.wrapped.filter (·.name == name)).Pairwise
      fun a b => !(decide (b.name < a.name)) := by
    refine List.pairwise_of_forall_mem_list fun a ha b hb => ?_
    rw [not_lt_iff_le, eq_of_beq (List.mem_filter.1 ha).2, eq_of_beq (List.mem_filter.1 hb).2]
  have hsublist : (s.wrapped.filter (·.name == name)).Sublist (ordered s) :=
    List.sublist_mergeSort trans_byName total_byName hsame List.filter_sublist
  have hfiltered := hsublist.filter (·.name == name)
  rw [List.filter_filter] at hfiltered
  simp only [Bool.and_self] at hfiltered
  exact (hfiltered.eq_of_length hperm.length_eq.symm).symm

theorem isByName_ordered (s : Schema) : IsByName s.wrapped (ordered s) where
  perm := List.mergeSort_perm _ _
  sorted := (List.pairwise_mergeSort trans_byName total_byName s.wrapped).imp fun h =>
    (not_lt_iff_le _ _).1 h
  stable := filter_ordered_eq s

/-- Where names differ, the order of a schema does not matter. -/
theorem ordered_congr (hperm : s'.procedures.Perm s.procedures)
    (hnames : (s.wrapped.map (·.name)).Nodup) : ordered s' = ordered s := by
  have hwrapped : s'.wrapped.Perm s.wrapped := hperm.filter _
  have hordered : (ordered s').Perm (ordered s) :=
    (isByName_ordered s').perm.trans (hwrapped.trans (isByName_ordered s).perm.symm)
  refine List.Perm.eq_of_pairwise ?_ (isByName_ordered s').sorted (isByName_ordered s).sorted
    hordered
  intro a b ha hb hab hba
  have hbs : b ∈ s.wrapped := List.mem_mergeSort.1 hb
  have has : a ∈ s.wrapped := hwrapped.mem_iff.1 (List.mem_mergeSort.1 ha)
  exact List.inj_on_of_nodup_map hnames has hbs (le_antisymm hab hba)

/-! ## Wrappers -/

/-- What the definition of a wrapper and its registration agree on: the name that SQL sees, and
whether the function is table valued. -/
structure Wrapper where
  name : String
  isTable : Bool
  deriving DecidableEq

namespace Wrapper

/-- The wrapper of a procedure. -/
def ofProcedure (o : Options) (p : Procedure) : Wrapper := ⟨sqlName o p, p.hasProjection⟩

/-- The head of the function, with the brace behind it. A table valued function is given the
database and a place for its result set, any other one the context of the call. -/
def head (w : Wrapper) : String :=
  "void " ++ ("call_" ++ w.name) ++ "(" ++
    (if w.isTable then
      "sqlite3 *_Nonnull db, int32_t argc, sqlite3_value *_Nonnull *_Nonnull argv, " ++
        "cql_result_set_ref *result"
    else
      "sqlite3_context *_Nonnull context, int32_t argc, " ++
        "sqlite3_value *_Nonnull *_Nonnull argv") ++ ")\n" ++ "\x7b\n"

/-- A text defines a wrapper: behind comments the function with some body. -/
def DefinedBy (w : Wrapper) (text : String) : Prop :=
  ∃ comments body, text = comments ++ (w.head ++ body ++ "\x7d\n") ++ "\n"

/-- The statements that register a wrapper, with the columns of the table or with the number of
arguments. -/
inductive RegisteredBy : Wrapper → String → Prop
  | table (name : String) (columns : List String) :
      RegisteredBy ⟨name, true⟩
        ("  aux = cql_rowset_create_aux_init(" ++ ("call_" ++ name) ++
          ", \"CREATE TABLE " ++ name ++ "(" ++ String.intercalate ", " columns ++ ")\");\n" ++
          "  rc = register_cql_rowset_tvf(db, aux, \"" ++ name ++ "\");\n")
  | scalar (name : String) (arity : Nat) :
      RegisteredBy ⟨name, false⟩
        ("  rc = sqlite3_create_function(db, \"" ++ name ++ "\", " ++ toString arity ++
          ", SQLITE_UTF8, NULL, " ++ ("call_" ++ name) ++ ", NULL, NULL);\n")

end Wrapper

/-- The function that performs the statements of registrations in order, until one fails. -/
def performing (statements : List String) : String :=
  "\nint sqlite3_cqlextension_init(sqlite3 *_Nonnull db, char *_Nonnull *_Nonnull pzErrMsg, " ++
    "const sqlite3_api_routines *_Nonnull pApi) \x7b\n" ++
  "#ifdef CQL_SQLITE_EXT\n" ++
  "  SQLITE_EXTENSION_INIT2(pApi);  // Initialize extension API function pointers\n" ++
  "#endif\n\n" ++
  "  int rc = SQLITE_OK;\n" ++
  "  cql_rowset_aux_init *aux = NULL;\n" ++
  String.join (statements.map fun t => "\n" ++ t ++ "\n  if (rc != SQLITE_OK) return rc;\n") ++
  "\n  return rc;\n" ++
  "\x7d\n"

/-- The wrappers of a file before the function that registers them. -/
def wrapperPart (o : Options) (s : Schema) : String := bannerText o ++ wrappersText o s

/-- A file defines wrappers and registers wrappers, and these are the same: those of the procedures
that are not suppressed, one each, under the names that SQL sees, those that are table valued as
tables. The wrappers come by the names of their procedures. -/
structure Registers (o : Options) (s : Schema) (defined registered : List Wrapper) : Prop where
  same : defined.Perm registered
  wrapped : registered = s.wrapped.map (Wrapper.ofProcedure o)
  byName : ∃ ps, IsByName s.wrapped ps ∧ defined = ps.map (Wrapper.ofProcedure o)
  parts : text o s = wrapperPart o s ++ initializerText o s
  definitions : ∃ texts, List.Forall₂ Wrapper.DefinedBy defined texts ∧
    wrapperPart o s = bannerText o ++ String.join texts
  registrations : ∃ statements, List.Forall₂ Wrapper.RegisteredBy registered statements ∧
    initializerText o s = performing statements

theorem head_function (v : Verbosity) (o : Options) (p : Procedure) :
    (SqliteWrapper.function v (sqlName o p) p).head = (Wrapper.ofProcedure o p).head := by
  unfold Wrapper.head Wrapper.ofProcedure Function.head SqliteWrapper.function
    SqliteWrapper.params SqliteWrapper.symbol
  cases p.hasProjection with
  | true => rfl
  | false => rfl

theorem definedBy_text (v : Verbosity) (o : Options) (p : Procedure) :
    (Wrapper.ofProcedure o p).DefinedBy (SqliteWrapper.text v (sqlName o p) p) := by
  refine ⟨unlines (Stmt.linesOf 0 (SqliteWrapper.shown v (SqliteWrapper.preface (sqlName o p) p))),
    (SqliteWrapper.function v (sqlName o p) p).bodyText, ?_⟩
  rw [← head_function v, ← Function.text_eq_head]
  rfl

theorem registeredBy_registration (o : Options) (p : Procedure) :
    (Wrapper.ofProcedure o p).RegisteredBy ((registration p).text (sqlName o p)) := by
  unfold Wrapper.ofProcedure registration
  cases p.hasProjection with
  | true => exact .table (sqlName o p) _
  | false => exact .scalar (sqlName o p) _

theorem registers_ordered (o : Options) (s : Schema) :
    Registers o s ((ordered s).map (Wrapper.ofProcedure o))
      (s.wrapped.map (Wrapper.ofProcedure o)) where
  same := (isByName_ordered s).perm.map _
  wrapped := rfl
  byName := ⟨ordered s, isByName_ordered s, rfl⟩
  parts := rfl
  definitions := by
    refine ⟨(ordered s).map fun p => SqliteWrapper.text o.verbosity (sqlName o p) p, ?_, rfl⟩
    rw [List.forall₂_map_left_iff, List.forall₂_map_right_iff]
    exact List.forall₂_same.2 fun p _ => definedBy_text o.verbosity o p
  registrations := by
    refine ⟨s.wrapped.map fun p => (registration p).text (sqlName o p), ?_, ?_⟩
    · rw [List.forall₂_map_left_iff, List.forall₂_map_right_iff]
      exact List.forall₂_same.2 fun p _ => registeredBy_registration o p
    · unfold initializerText performing SqliteExtension.registrations
      rw [List.map_map, List.map_map]
      rfl

/-- Exactly the wrappers of a file are registered, tables as tables, and where the names of
procedures differ, listing them in another order or in other sections leaves the wrappers as they
are. -/
theorem registers_wrappers (o : Options) (s : Schema) :
    Registers o s ((ordered s).map (Wrapper.ofProcedure o))
        (s.wrapped.map (Wrapper.ofProcedure o)) ∧
      ∀ s' : Schema, s'.procedures.Perm s.procedures →
        (s.procedures.map (·.name)).Nodup → wrapperPart o s' = wrapperPart o s := by
  refine ⟨registers_ordered o s, fun s' hperm hnames => ?_⟩
  have hwrapped : (s.wrapped.map (·.name)).Nodup :=
    List.Sublist.nodup (List.Sublist.map _ List.filter_sublist) hnames
  rw [wrapperPart, wrapperPart, wrappersText, wrappersText, ordered_congr hperm hwrapped]

/-- A procedure with a result set. -/
def listUsers : Procedure :=
  ⟨"list_users", [⟨"since", .long, true, .inOnly, none, false⟩],
    some [⟨"id", .integer, true, none, false⟩], [], some true, false⟩

/-- A procedure without one. -/
def addUser : Procedure :=
  ⟨"add_user", [⟨"name", .text, true, .inOnly, none, false⟩], none, [], some true, false⟩

/-- A procedure that gets no wrapper. -/
def resetUsers : Procedure := ⟨"reset_users", [], none, [⟨"cql:private", .null⟩], some true, false⟩

/-- The three by sections, not in the order of their names. -/
def usersBySection : Schema := ⟨[listUsers], [resetUsers], [addUser], [], [], []⟩

/-- The three in one section. -/
def usersInOne : Schema := ⟨[], [], [], [], [], [addUser, listUsers, resetUsers]⟩

theorem registers_wrappers_users :
    let o : Options := ⟨"users.json", "users.h", some "app", .quiet⟩
    usersInOne.procedures.Perm usersBySection.procedures ∧
      (usersBySection.procedures.map (·.name)).Nodup ∧
      Registers o usersBySection [⟨"app_add_user", false⟩, ⟨"app_list_users", true⟩]
        [⟨"app_list_users", true⟩, ⟨"app_add_user", false⟩] ∧
      wrapperPart o usersInOne = wrapperPart o usersBySection := by
  have hperm : usersInOne.procedures.Perm usersBySection.procedures :=
    @List.perm_append_comm _ [addUser] [listUsers, resetUsers]
  have hnames : (usersBySection.procedures.map (·.name)).Nodup := by decide
  have hinOne : ordered usersInOne = [addUser, listUsers] := by
    change [addUser, listUsers].mergeSort _ = _
    exact List.mergeSort_of_pairwise (by decide)
  have hordered : ordered usersBySection = [addUser, listUsers] :=
    (ordered_congr hperm.symm (by decide)).trans hinOne
  have hregisters := registers_wrappers ⟨"users.json", "users.h", some "app", .quiet⟩ usersBySection
  rw [hordered] at hregisters
  exact ⟨hperm, hnames, hregisters.1, hregisters.2 usersInOne hperm hnames⟩

end CqlGlue.SqliteExtension
