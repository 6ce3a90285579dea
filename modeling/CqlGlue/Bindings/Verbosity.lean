/-!
# Verbosity

How much commentary generated code carries, from none to all.

## Main definitions
* `Verbosity` lists the levels in increasing order.
* `Verbosity.ofName?` reads the name of a level.
* `Verbosity.atLeast` compares two levels.
-/

namespace CqlGlue

/-- The levels of commentary. -/
inductive Verbosity where
  | quiet
  | normal
  | verbose
  | veryVerbose
  | debug
  deriving DecidableEq, Repr

namespace Verbosity

/-- All levels in increasing order. -/
def all : List Verbosity := [quiet, normal, verbose, veryVerbose, debug]

/-- The position of a level in the order. -/
def rank : Verbosity → Nat
  | quiet => 0
  | normal => 1
  | verbose => 2
  | veryVerbose => 3
  | debug => 4

/-- The name of a level. -/
def name : Verbosity → String
  | quiet => "quiet"
  | normal => "normal"
  | verbose => "verbose"
  | veryVerbose => "very_verbose"
  | debug => "debug"

/-- The level of a name, letter by letter. -/
def ofName? (s : String) : Option Verbosity := all.find? (·.name == s)

/-- Whether a level reaches another. -/
def atLeast (v least : Verbosity) : Bool := least.rank ≤ v.rank

/-- The level used when none is asked for. -/
def standard : Verbosity := veryVerbose

end Verbosity

end CqlGlue
