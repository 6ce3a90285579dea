/-!
# Hand-written rules of the generated grammar

Literals, comments and conditional blocks cannot be told from the listing. Their rules are
fixed and stand before the generated ones, in groups separated by empty lines.

## Main definitions
* `bootRules` lists the rules, group by group.
* `bootText` is the text they are printed as.
-/

namespace CqlGlue.EditorGrammar

/-- The fixed rules by group, each a name and a body. -/
def bootRules : List (List (String × String)) := [
  [("program", "$ => optional($.stmt_list)")],
  [("INT_LIT", "$ => choice(/[0-9]+/, /0x[0-9a-fA-F]+/)"),
    ("LONG_LIT", "$ => choice(/[0-9]+L/, /0x[0-9a-fA-F]+L/)"),
    ("REAL_LIT", "$ => /([0-9]+\\.[0-9]*|\\.[0-9]+)((E|e)(\\+|\\-)?[0-9]+)?/"),
    ("BLOB_LIT", "$ => /[xX]'([0-9a-fA-F][0-9a-fA-F])*'/"),
    ("C_STR_LIT", "$ => /\"(\\.|[^\"\\n])*\"/"),
    ("STR_LIT", "$ => /'(\\.|''|[^'])*'/"),
    ("ELSE_IF", "$ => /[Ee][Ll][sS][eE][ \\t]*[Ii][Ff][ \\t\\n]/"),
    ("ID", "$ => /[_A-Za-z][A-Za-z0-9_]*/"),
    ("ID_BANG", "$ => /[_A-Za-z][A-Za-z0-9_]*[!]/"),
    ("QID", "$ => /`(``|[^`\\n])*`/")],
  [("include_stmt", "$ => seq(CI('@include'), $.C_STR_LIT)")],
  [("comment",
      ("$ => token(choice(\n" ++
      "       seq('--', /(\\\\(.|\\r?\\n)|[^\\\\\\n])*/),\n" ++
      "       seq('/*', /[^*]*\\*+([^/*][^*]*\\*+)*/, '/')))"))],
  [("non_expr_macro_ref",
      ("$ => choice(\n" ++
      "      $.stmt_list_macro_ref,\n" ++
      "      $.cte_tables_macro_ref,\n" ++
      "      $.select_core_macro_ref,\n" ++
      "      $.select_expr_macro_ref,\n" ++
      "      $.query_parts_macro_ref)"))],
  [("expr_macro_ref",
      ("$ => prec.left(1,choice(\n" ++
      "      seq($.ID_BANG),\n" ++
      "      seq($.ID_BANG, '(', optional($.opt_macro_args), ')'),\n" ++
      "      seq($.basic_expr, ':', $.ID_BANG, '(', optional($.opt_macro_args), ')'),\n" ++
      "      seq($.basic_expr, ':', $.ID_BANG)))"))],
  [("macro_ref",
      "$ => choice(seq($.ID_BANG), seq($.ID_BANG, '(', optional($.opt_macro_args), ')'))")],
  [("query_parts_macro_ref", "$ => prec(1, $.macro_ref)"),
    ("cte_tables_macro_ref", "$ => prec(2, $.macro_ref)"),
    ("select_core_macro_ref", "$ => prec(3, $.macro_ref)"),
    ("select_expr_macro_ref", "$ => prec(4, $.macro_ref)"),
    ("stmt_list_macro_ref", "$ => prec(5, $.macro_ref)")],
  [("AT_IFDEF", "$ => CI('@ifdef')"),
    ("AT_IFNDEF", "$ => CI('@ifndef')"),
    ("AT_ELSE", "$ => CI('@else')"),
    ("AT_ENDIF", "$ => CI('@endif')")],
  [("ifdef",
      "$ => seq($.AT_IFDEF, $.ID, $.stmt_list, optional(seq($.AT_ELSE, $.stmt_list)), $.AT_ENDIF)"),
    ("ifndef",
      "$ => seq($.AT_IFNDEF, $.ID, $.stmt_list, optional(seq($.AT_ELSE, $.stmt_list)), $.AT_ENDIF)")],
  [("pre_proc", "$ => choice($.ifdef, $.ifndef)")],
  [("stmt_list", "$ => repeat1(choice($.stmt, $.include_stmt, $.pre_proc, $.comment))")]]

/-- The text of the fixed rules. Every group is preceded by a line end. -/
def bootText : String :=
  String.join (bootRules.map fun group =>
    "\n" ++ String.join (group.map fun rule => "    " ++ rule.1 ++ ": " ++ rule.2 ++ ",\n"))

end CqlGlue.EditorGrammar
