import CqlGlue.Table

/-!
# Tables that steer grammar generation

How a listing becomes an editor grammar is decided by ten tables. Their defaults describe the
grammar of CQL; a configuration file replaces any of them as a whole.

## Main definitions
* `Config` holds the tables, `Config.standard` their defaults.
* `Config.isDeleted` says which rules are never printed.
-/

namespace CqlGlue.EditorGrammar

/-- The tables of one generation. -/
structure Config where
  /-- The name of the generated grammar. -/
  name : String
  /-- The comment at the top of the generated file. -/
  header : String
  /-- Groups of rules listed as conflicts. -/
  conflicts : List (List String)
  /-- Rules whose alternatives are printed one on a line. -/
  lineBreakRules : NameSet
  /-- Texts that wrap the body of a rule; the first pair of braces in one stands for the body. -/
  precedence : Table String
  /-- Tokens of the listing that stand for rules of another name. -/
  renames : Table String
  /-- Productions spliced into their users. -/
  suppressed : NameSet
  /-- Rules never printed, besides every target of a rename. -/
  deleted : NameSet
  /-- Expressions used wherever the keyed rule is referenced. -/
  referenceOverrides : Table String
  /-- Definitions that replace generated rules of the same name. -/
  ruleOverrides : Table String

namespace Config

/-- Whether a rule must not be printed. -/
def isDeleted (config : Config) (name : String) : Bool :=
  config.deleted.contains name || config.renames.values.contains name

/-- The comment printed above a generated grammar by default. -/
def standardHeader : String :=
  "/**\n" ++
    " * Copyright (c) Meta Platforms, Inc. and affiliates.\n" ++
    " *\n" ++
    " * This source code is licensed under the MIT license found in the\n" ++
    " * LICENSE file in the root directory of this source tree.\n" ++
    " */"

/-- Rules of CQL with many alternatives. -/
def standardLineBreakRules : NameSet :=
  NameSet.ofList ["any_literal", "any_stmt", "basic_expr", "col_attrs", "create_index_stmt",
    "create_proc_stmt", "create_table_stmt", "create_view_stmt", "create_virtual_table_stmt",
    "cte_table", "data_type_any", "data_type_numeric", "data_type_with_options",
    "declare_forward_read_cursor_stmt", "declare_func_stmt", "declare_proc_stmt",
    "declare_select_func_stmt", "declare_value_cursor", "enforcement_options", "explain_target",
    "expr", "fetch_values_stmt", "fk_def", "fk_on_options", "from_shape", "insert_stmt",
    "insert_stmt_type", "math_expr", "misc_attr", "name", "op_stmt", "pk_def", "raise_expr",
    "rollback_trans_stmt", "schema_ad_hoc_migration_stmt", "select_core", "select_core_list",
    "simple_call", "table_or_subquery", "trycatch_stmt", "unq_def", "update_cursor_stmt",
    "update_stmt", "upsert_stmt", "version_attrs_opt_recreate"]

/-- Rules of CQL that need a precedence. -/
def standardPrecedence : Table String :=
  Table.ofList [("fk_target_options", "prec.left(\x7b\x7d)"),
    ("join_target", "prec.left(\x7b\x7d)"), ("elseif_list", "prec.left(\x7b\x7d)"),
    ("cte_decl", "prec.left(1, \x7b\x7d)"), ("loose_name", "prec.left(100, \x7b\x7d)"),
    ("basic_expr", "prec.left(1, \x7b\x7d)"), ("math_expr", "prec.left(1, \x7b\x7d)"),
    ("expr", "prec.left(1, \x7b\x7d)")]

/-- Terminals that the listing of CQL uses and never defines. -/
def standardRenames : Table String :=
  Table.ofList [("integer-literal", "INT_LIT"), ("long-literal", "LONG_LIT"),
    ("real-literal", "REAL_LIT"), ("sql-blob-literal", "BLOB_LIT"),
    ("c-string-literal", "C_STR_LIT"), ("sql-string-literal", "STR_LIT"), ("ID!", "ID_BANG"),
    ("`quoted_identifier`", "QID"), ("ID", "ID"), ("ELSE_IF", "ELSE_IF")]

/-- Rules of CQL that are defined by hand or have no use in an editor. -/
def standardDeleted : NameSet :=
  NameSet.ofList ["@INCLUDE_quoted-filename", "ELSE_IF", "cte_tables_macro_ref",
    "end_of_included_file", "expr_macro_ref", "include_section", "include_stmts",
    "non_expr_macro_ref", "opt_distinct", "opt_stmt_list", "program", "query_parts_macro_ref",
    "select_core_macro_ref", "select_expr_macro_ref", "stmt_list", "stmt_list_macro_ref",
    "top_level_stmts", "`quoted_identifier`"]

/-- Rules of CQL that may match nothing and whose parts may not. -/
def standardReferenceOverrides : Table String :=
  Table.ofList [("opt_stmt_list", "optional($.stmt_list)"),
    ("opt_distinct", "optional($.DISTINCT)")]

/-- Rules of CQL that are better written by hand. -/
def standardRuleOverrides : Table String :=
  Table.ofList [("if_stmt",
    "$ => seq($.IF, $.expr, $.THEN, optional($.stmt_list), " ++
    "optional(repeat1($.elseif_item)), optional($.opt_else), $.END, optional($.IF))")]

/-- The tables for the grammar of CQL. -/
def standard : Config where
  name := "cql"
  header := standardHeader
  conflicts := [["fk_options"]]
  lineBreakRules := standardLineBreakRules
  precedence := standardPrecedence
  renames := standardRenames
  suppressed := NameSet.ofList ["create_table_prefix_opt_temp"]
  deleted := standardDeleted
  referenceOverrides := standardReferenceOverrides
  ruleOverrides := standardRuleOverrides

end Config

end CqlGlue.EditorGrammar
