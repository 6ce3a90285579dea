import CqlGlue.Bindings.Code

/-!
# Objective-C classes

A class is declared by an interface in a header and defined by an implementation. Both are
data, so that it can be asked whether the one provides what the other promises; the texts are
printed from them.

## Main definitions
* `Interface` and `Implementation` are the two halves of a class.
* `Interface.text` and `Implementation.text` print.
-/

namespace CqlGlue.ObjcClass

open Code

/-- An instance variable. -/
structure Ivar where
  type : String
  name : String
  deriving DecidableEq, Repr

/-- The line of an instance variable. -/
def Ivar.line (i : Ivar) : String := "  " ++ i.type ++ " " ++ i.name ++ ";\n"

/-- What an interface promises. -/
inductive Promise where
  /-- A property, with the rule by which it is set. -/
  | property (rule type name : String)
  /-- A method that reads a row. -/
  | rowReader (type name : String)
  deriving DecidableEq, Repr

/-- The line of a promise. -/
def Promise.line : Promise → String
  | property rule type name => "@property (nonatomic, " ++ rule ++ ") " ++ type ++ " " ++ name ++ ";\n"
  | rowReader type name => "- (" ++ type ++ ")" ++ name ++ ":(NSUInteger)row;\n"

/-- The declaration of a class. -/
structure Interface where
  name : String
  /-- The instance variables, where the interface lists them. -/
  ivars : Option (List Ivar)
  /-- What is promised, in groups that empty lines set apart. -/
  groups : List (List Promise)
  deriving DecidableEq, Repr

/-- A line that sets classes apart. -/
def rule : String := "// ----------------------------------------------------------------\n"

/-- A class between two rules. -/
def framed (text : String) : String := "\n" ++ rule ++ text ++ "\n@end\n" ++ rule

/-- A list of instance variables. -/
def ivarsText (ivars : List Ivar) : String :=
  " \x7b\n" ++ String.join (ivars.map Ivar.line) ++ "\x7d\n"

/-- The text of an interface. -/
def Interface.text (i : Interface) : String :=
  framed ("@interface " ++ i.name ++ " : NSObject" ++
    (match i.ivars with
    | some ivars => ivarsText ivars
    | none => "") ++
    String.join (i.groups.map fun g => "\n" ++ String.join (g.map Promise.line)))

/-- A method. -/
structure Method where
  type : String
  name : String
  /-- Whether the method reads a row. -/
  takesRow : Bool
  body : List Stmt
  deriving Repr

/-- The text of a method that begins with `opening`. -/
def Method.text (opening : String) (m : Method) : String :=
  "\n" ++ opening ++ "(" ++ m.type ++ ")" ++ m.name ++
    (if m.takesRow then ":(NSUInteger)row" else "") ++ " \x7b\n" ++
    unlines (Stmt.linesOf 1 m.body) ++ "\x7d\n"

/-- The definition of a class. -/
structure Implementation where
  name : String
  /-- Whether the class above is named. -/
  namesSuper : Bool
  ivars : List Ivar
  /-- The methods that answer what the interface promises. -/
  readers : List Method
  /-- The methods every object of the class has. -/
  upkeep : List Method
  /-- Properties and the instance variables behind them. -/
  synthesized : List (String × String)
  deriving Repr

/-- All methods of an implementation, in order. -/
def Implementation.methods (i : Implementation) : List Method := i.readers ++ i.upkeep

/-- The text of an implementation. -/
def Implementation.text (i : Implementation) : String :=
  framed ("@implementation " ++ i.name ++ (if i.namesSuper then " : NSObject" else "") ++
    ivarsText i.ivars ++
    String.join (i.readers.map (Method.text "- ")) ++
    String.join (i.upkeep.map (Method.text "-")) ++ "\n" ++
    String.join (i.synthesized.map fun s => "@synthesize " ++ s.1 ++ " = " ++ s.2 ++ ";\n"))

end CqlGlue.ObjcClass
