import CqlGlue.Bindings.Code
import CqlGlue.Proofs.Text.InOrder

/-!
# Heads of functions

What callers see of a function in a C file is its head: what it gives back, its symbol and its
parameters, up to the brace that opens the body. The head is written down here as it has to stand
in the file, on one line or with a parameter a line, apart from the printer.

## Main definitions
* `Param.declared` is a parameter as C declares it.
* `Function.head` and `Function.stackedHead` are heads.
-/

namespace CqlGlue.Code

/-- A parameter as C declares it. -/
def Param.declared (q : Param) : String :=
  if q.isPointer then q.type ++ " *" ++ q.name else q.type ++ " " ++ q.name

theorem Param.text_eq_declared (q : Param) : q.text = q.declared := by
  rw [text, declared]
  cases q.isPointer <;> rfl

namespace Function

/-- The head of a function on one line, with the brace behind it. -/
def head (f : Function) : String :=
  f.result ++ f.symbol ++ "(" ++ String.intercalate ", " (f.params.map Param.declared) ++
    ")\n" ++ "\x7b\n"

/-- The head of a function with a parameter a line, with the brace behind it. -/
def stackedHead (f : Function) : String :=
  f.result ++ f.symbol ++ "(\n" ++
    String.intercalate ",\n" (f.params.map fun q => "  " ++ q.declared) ++ ")\n" ++ "\x7b\n"

/-- A function begins with its head and ends with the brace that closes the body. -/
theorem text_eq_head (f : Function) : f.text = f.head ++ f.bodyText ++ "\x7d\n" := by
  rw [text, head, List.map_congr_left fun q _ => q.text_eq_declared]

theorem stackedText_eq_stackedHead (f : Function) :
    f.stackedText = f.stackedHead ++ f.bodyText ++ "\x7d\n" := by
  have hparams : f.params.map (fun q => "  " ++ q.text) =
      f.params.map fun q => "  " ++ q.declared :=
    List.map_congr_left fun q _ => congrArg ("  " ++ ·) q.text_eq_declared
  rw [stackedText, stackedHead, hparams]

theorem inOrder_stackedHead (f : Function) : Text.InOrder [f.stackedHead] f.stackedText := by
  rw [stackedText_eq_stackedHead]
  exact .before (.before (.self _) _) _

end Function

end CqlGlue.Code
