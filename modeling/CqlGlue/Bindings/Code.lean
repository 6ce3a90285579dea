import CqlGlue.Schema.Basic

/-!
# C code

The part of C, with the messages of Objective-C, that wrappers are made of. A wrapper is a
function whose body is a list of statements; what it declares, calls and writes can be asked of
the statements, and the text is printed from them.

## Main definitions
* `Expr` and `Stmt` are expressions and statements, `ProcCall` is the call of a procedure.
* `Function` is a function with its parameters and its body.
* `Expr.text`, `Stmt.lines` and `Function.text` print.
-/

namespace CqlGlue.Code

/-- An expression. -/
inductive Expr where
  /-- A variable, a constant or a literal, as it is written. -/
  | name (text : String)
  | address (e : Expr)
  /-- The member of a structure behind a pointer. -/
  | member (object field : String)
  /-- The property of an object. -/
  | property (object field : String)
  | element (array : String) (index : Nat)
  | negation (e : Expr)
  | differ (a b : Expr)
  | cast (type : String) (e : Expr)
  | choice (condition yes no : Expr)
  | call (function : String) (args : List Expr)
  /-- A value in the object that holds values of its type. -/
  | boxed (e : Expr)
  | message (receiver : Expr) (selector : String)
  deriving Repr

mutual

/-- The text of an expression. -/
def Expr.text : Expr → String
  | .name s => s
  | .address e => "&" ++ e.text
  | .member object field => object ++ "->" ++ field
  | .property object field => object ++ "." ++ field
  | .element array index => array ++ "[" ++ toString index ++ "]"
  | .negation e => "!" ++ e.text
  | .differ a b => a.text ++ " != " ++ b.text
  | .cast type e => "(" ++ type ++ ")" ++ e.text
  | .choice condition yes no => condition.text ++ " ? " ++ yes.text ++ " : " ++ no.text
  | .call function args => function ++ "(" ++ String.intercalate ", " (Expr.texts args) ++ ")"
  | .boxed e => "@(" ++ e.text ++ ")"
  | .message receiver selector => "[" ++ receiver.text ++ " " ++ selector ++ "]"

/-- The texts of the expressions of a list. -/
def Expr.texts : List Expr → List String
  | [] => []
  | e :: es => e.text :: Expr.texts es

end

/-! ## Calls of procedures -/

/-- What a call passes for an argument: an expression, or a text that stops the C compiler
because the argument cannot be passed. -/
inductive Operand where
  | value (e : Expr)
  | unsupported (text : String)
  deriving Repr

/-- The text of an operand. -/
def Operand.text : Operand → String
  | value e => e.text
  | unsupported text => text

/-- What a call passes for an argument, after a remark. -/
structure CallArg where
  remark : String
  /-- Whether the address of the operand is passed. -/
  byAddress : Bool
  operand : Operand
  deriving Repr

/-- The text of a passed argument. -/
def CallArg.text (a : CallArg) : String :=
  a.remark ++ (if a.byAddress then "&" else "") ++ a.operand.text

/-- How a call is laid out. -/
inductive CallLayout where
  /-- On one line. -/
  | inline
  /-- An argument a line, the last one closing the call. -/
  | stacked
  /-- An argument a line, closed on a line of its own. -/
  | framed
  deriving DecidableEq, Repr

/-- The call of a procedure by its C function. -/
structure ProcCall where
  /-- Whether the result code is kept. -/
  keepsCode : Bool
  function : String
  /-- What is passed before the arguments of the procedure. -/
  leading : List Expr
  args : List CallArg
  layout : CallLayout
  deriving Repr

namespace ProcCall

/-- The C function of a procedure. A result set is fetched by a function of its own. -/
def functionOf (p : Procedure) : String :=
  p.name ++ if p.hasProjection then "_fetch_results" else ""

/-- The call of a procedure with what its caller passes. -/
def ofProcedure (p : Procedure) (leading : List Expr) (args : List CallArg)
    (layout : CallLayout) : ProcCall :=
  ⟨p.usesDatabase, functionOf p, leading, args, layout⟩

/-- The beginning of a call, to its opening parenthesis. -/
def opening (c : ProcCall) : String :=
  (if c.keepsCode then "rc = " else "") ++ c.function ++ "("

/-- The leading expressions of a call on one line, as one text when there are any. -/
def leadingTexts (c : ProcCall) : List String :=
  match c.leading with
  | [] => []
  | es => [String.intercalate ", " (es.map Expr.text)]

/-- All that a call passes, in order. -/
def passed (c : ProcCall) : List String := c.leading.map Expr.text ++ c.args.map CallArg.text

/-- The lines of a call that begins after `pad`. -/
def lines (pad : String) (c : ProcCall) : List String :=
  match c.layout with
  | .inline =>
    [pad ++ c.opening ++ String.intercalate "," (c.leadingTexts ++ c.args.map CallArg.text) ++ ");"]
  | .stacked =>
    [pad ++ c.opening, "    " ++ String.intercalate ",\n    " c.passed ++ ");"]
  | .framed =>
    match c.passed with
    | [] => [pad ++ c.opening, pad ++ ");"]
    | items =>
      [pad ++ c.opening, String.intercalate ",\n" (items.map ("    " ++ ·)), pad ++ ");"]

end ProcCall

/-! ## Statements -/

/-- What a declared variable holds at first. -/
inductive Start where
  | unset
  | value (e : Expr)
  /-- The null of a value that may be null, set by the runtime. -/
  | null
  deriving Repr

/-- The declaration of a variable. -/
structure Declaration where
  type : String
  name : String
  /-- Whether the variable is a pointer to the type. -/
  isPointer : Bool
  start : Start
  /-- Whether type and name are padded to columns. -/
  isAligned : Bool
  deriving Repr

/-- Fills a text with blanks up to a width in characters. -/
def padded (width : Nat) (s : String) : String :=
  s ++ String.ofList (List.replicate (width - s.length) ' ')

/-- The text of a declaration. -/
def Declaration.text (d : Declaration) : String :=
  (if d.isAligned then padded 20 d.type ++ " " ++ padded 25 d.name
   else d.type ++ (if d.isPointer then " *" else " ") ++ d.name) ++
  match d.start with
  | .unset => ";"
  | .value e => " = " ++ e.text ++ ";"
  | .null => " ; cql_set_null(" ++ d.name ++ ");"

/-- A statement. -/
inductive Stmt where
  | declare (d : Declaration)
  /-- The declaration of a structure with the values of its fields. -/
  | record (type name : String) (fields : List (String × String))
  | assign (target value : Expr)
  | perform (e : Expr)
  | call (c : ProcCall)
  | performWhen (condition e : Expr)
  | block (condition : Expr) (body : List Stmt)
  | jumpWhen (condition : Expr) (target remark : String)
  | jump (target : String)
  | label (name : String)
  | leave (value : Option Expr)
  /-- A comment, as it is written. -/
  | note (text : String)
  /-- A statement that does nothing, with the reason for it. -/
  | idle (reason : String)
  | blank
  deriving Repr

namespace Stmt

/-- Declares a variable with a value. -/
def define (type name : String) (e : Expr) : Stmt := declare ⟨type, name, false, .value e, false⟩

/-- Declares a variable that points to the type, with a value. -/
def definePointer (type name : String) (e : Expr) : Stmt :=
  declare ⟨type, name, true, .value e, false⟩

/-- Declares a variable. -/
def reserve (type name : String) : Stmt := declare ⟨type, name, false, .unset, false⟩

/-- The blanks before a line at a depth of nesting. -/
def indent (level : Nat) : String := String.ofList (List.replicate (2 * level) ' ')

mutual

/-- The lines of a statement at a depth of nesting. -/
def lines (level : Nat) : Stmt → List String
  | declare d => [indent level ++ d.text]
  | record type name fields =>
    [indent level ++ type ++ " " ++ name ++ " = \x7b"] ++
      fields.map (fun f => indent (level + 1) ++ "." ++ f.1 ++ " = " ++ f.2 ++ ",") ++
      [indent level ++ "\x7d;"]
  | assign target value => [indent level ++ target.text ++ " = " ++ value.text ++ ";"]
  | perform e => [indent level ++ e.text ++ ";"]
  | call c => c.lines (indent level)
  | performWhen condition e =>
    [indent level ++ "if (" ++ condition.text ++ ") " ++ e.text ++ ";"]
  | block condition body =>
    [indent level ++ "if (" ++ condition.text ++ ") \x7b"] ++ linesOf (level + 1) body ++
      [indent level ++ "\x7d"]
  | jumpWhen condition target remark =>
    [indent level ++ "if (" ++ condition.text ++ ") goto " ++ target ++ ";" ++ remark]
  | jump target => [indent level ++ "goto " ++ target ++ ";"]
  | label name => [indent level ++ name ++ ":"]
  | leave none => [indent level ++ "return;"]
  | leave (some e) => [indent level ++ "return " ++ e.text ++ ";"]
  | note text => [indent level ++ text]
  | idle reason => [indent level ++ "/* " ++ reason ++ " */ ;"]
  | blank => [""]

/-- The lines of a list of statements at a depth of nesting. -/
def linesOf (level : Nat) : List Stmt → List String
  | [] => []
  | s :: ss => s.lines level ++ linesOf level ss

end

/-- Statements set off by an empty line after them, when there are any. -/
def setOff : List Stmt → List Stmt
  | [] => []
  | ss => ss ++ [blank]

end Stmt

/-- Lines as a text. -/
def unlines (lines : List String) : String := String.join (lines.map (· ++ "\n"))

/-! ## Functions -/

/-- A parameter of a function. -/
structure Param where
  type : String
  name : String
  /-- Whether the parameter points to the type. -/
  isPointer : Bool
  deriving Repr, DecidableEq

namespace Param

/-- A parameter of the type itself. -/
def plain (type name : String) : Param := ⟨type, name, false⟩

/-- The text of a parameter. -/
def text (p : Param) : String := p.type ++ (if p.isPointer then " *" else " ") ++ p.name

end Param

/-- A function. -/
structure Function where
  /-- What stands before the name. -/
  result : String
  symbol : String
  params : List Param
  body : List Stmt
  deriving Repr

namespace Function

/-- The text between the braces. -/
def bodyText (f : Function) : String := unlines (Stmt.linesOf 1 f.body)

/-- The text of a function with its parameters on the line of its name. -/
def text (f : Function) : String :=
  f.result ++ f.symbol ++ "(" ++ String.intercalate ", " (f.params.map Param.text) ++ ")\n" ++
    "\x7b\n" ++ f.bodyText ++ "\x7d\n"

/-- The text of a function with a parameter a line. -/
def stackedText (f : Function) : String :=
  f.result ++ f.symbol ++ "(\n" ++
    String.intercalate ",\n" (f.params.map fun p => "  " ++ p.text) ++ ")\n" ++
    "\x7b\n" ++ f.bodyText ++ "\x7d\n"

end Function

end CqlGlue.Code
