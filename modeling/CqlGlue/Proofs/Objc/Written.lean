import CqlGlue.Bindings.ObjcClasses
import CqlGlue.Proofs.Code.Heads

/-!
# Classes as they are written

What an Objective-C compiler has to find of a class: the interface from `@interface` to `@end`, with
a declaration for each instance variable, property and reader, and the implementation from
`@implementation` to `@end`, with instance variables, methods and synthesized properties. The
declarations are written down here apart from the printer, which has to agree with them.

## Main definitions
* `Interface.written` and `Implementation.written` are the two halves of a class.
* `Prototype.written` is the declaration of a function.
-/

namespace CqlGlue

namespace ObjcClass

open Code

/-- The declaration of an instance variable. -/
def Ivar.written (v : Ivar) : String := "  " ++ v.type ++ " " ++ v.name ++ ";\n"

/-- Instance variables in braces. -/
def ivarBlock (ivars : List Ivar) : String :=
  " \x7b\n" ++ String.join (ivars.map Ivar.written) ++ "\x7d\n"

/-- The declaration of a property, or of a method that reads a row. -/
def Promise.written : Promise → String
  | property rule type name =>
    "@property (nonatomic, " ++ rule ++ ") " ++ type ++ " " ++ name ++ ";\n"
  | rowReader type name => "- (" ++ type ++ ")" ++ name ++ ":(NSUInteger)row;\n"

/-- The declaration of a class. -/
def Interface.written (i : Interface) : String :=
  "@interface " ++ i.name ++ " : NSObject" ++ (i.ivars.map ivarBlock).getD "" ++
    String.join (i.groups.map fun g => "\n" ++ String.join (g.map Promise.written)) ++ "\n@end\n"

/-- The definition of a method. -/
def Method.written (opening : String) (m : Method) : String :=
  "\n" ++ opening ++ "(" ++ m.type ++ ")" ++ m.name ++
    (if m.takesRow then ":(NSUInteger)row" else "") ++ " \x7b\n" ++
    unlines (Stmt.linesOf 1 m.body) ++ "\x7d\n"

/-- The definition of a class. A synthesized property is followed by the variable behind it. -/
def Implementation.written (m : Implementation) : String :=
  "@implementation " ++ m.name ++ (if m.namesSuper then " : NSObject" else "") ++
    ivarBlock m.ivars ++ String.join (m.readers.map (Method.written "- ")) ++
    String.join (m.upkeep.map (Method.written "-")) ++ "\n" ++
    String.join (m.synthesized.map fun x => "@synthesize " ++ x.1 ++ " = " ++ x.2 ++ ";\n") ++
    "\n@end\n"

theorem text_interface (i : Interface) : i.text = "\n" ++ rule ++ i.written ++ rule := by
  have hpromises : ∀ g : List Promise, g.map Promise.line = g.map Promise.written :=
    fun g => List.map_congr_left fun r _ => by cases r <;> rfl
  unfold Interface.text framed Interface.written
  simp only [hpromises, String.append_assoc]
  cases i.ivars <;> rfl

theorem text_implementation (m : Implementation) :
    m.text = "\n" ++ rule ++ m.written ++ rule := by
  unfold Implementation.text framed Implementation.written
  simp only [String.append_assoc]
  rfl

theorem inOrder_interface (i : Interface) : Text.InOrder [i.written] i.text := by
  rw [text_interface]
  exact .before (.after _ (.self _)) _

theorem inOrder_implementation (m : Implementation) : Text.InOrder [m.written] m.text := by
  rw [text_implementation]
  exact .before (.after _ (.self _)) _

end ObjcClass

namespace ObjcClasses

open Code

/-- The declaration of a function. -/
def Prototype.written (f : Prototype) : String :=
  f.result ++ f.symbol ++ "(" ++ String.intercalate ", " (f.params.map Param.declared) ++ ");\n"

theorem text_prototype (f : Prototype) : f.text = f.written := by
  rw [Prototype.text, Prototype.written, List.map_congr_left fun q _ => q.text_eq_declared]

end ObjcClasses

end CqlGlue
