import CqlGlue.Table

/-!
# Grammars

A grammar listing names productions; each has alternatives, and each alternative is a sequence
of tokens kept as they were written, quotes included. A production may also match nothing.

## Main definitions
* `Production` is the right-hand side of one definition.
* `Grammar` is a table of productions in order of first definition.
* `Grammar.define` adds a definition: a second definition of a name keeps the place of the
  first, takes the alternatives of the second and is optional if either is.
-/

namespace CqlGlue.Listing

/-- The right-hand side of a production. -/
structure Production where
  /-- The alternatives, each a sequence of tokens. -/
  choices : List (List String)
  /-- Whether the production may match nothing. -/
  optional : Bool
  deriving DecidableEq, Repr

/-- Productions under their names, in order of first definition. -/
abbrev Grammar := Table Production

namespace Grammar

/-- Whether the name has a production that may match nothing. -/
def isOptional (g : Grammar) (name : String) : Bool :=
  (g.get? name).any (·.optional)

/-- Adds a definition to those read before it. -/
def define (g : Grammar) (name : String) (p : Production) : Grammar :=
  g.insert name { p with optional := p.optional || isOptional g name }

/-- Adds definitions one after the other. -/
def defineAll (g : Grammar) (definitions : List (String × Production)) : Grammar :=
  definitions.foldl (fun g d => define g d.1 d.2) g

end Grammar

end CqlGlue.Listing
