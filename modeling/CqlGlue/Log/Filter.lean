import CqlGlue.Log.Directive
import CqlGlue.Text.Pieces

/-!
# Log filters

A filter is a list of directives with commas between them. An event is let through when the
most specific directive for it reaches its severity.

## Main definitions
* `Filter` is a list of directives.
* `Filter.parse` reads a filter.
* `Filter.allows` tells which events pass.
-/

namespace CqlGlue

/-- A list of directives. Of two for the same events the later one counts. -/
structure Filter where
  directives : List Directive
  deriving DecidableEq, Repr

namespace Filter

/-- The filter used when none is given or the given one cannot be read. -/
def standard (verbose : Bool) : Filter :=
  if verbose then ⟨[.ofPart "cqlgen" .trace, .ofPart none .debug]⟩
  else ⟨[.ofPart "cqlgen" .debug, .ofPart none .info]⟩

/-- Reads a filter. One without directives lets errors pass. -/
def parse (s : String) : Except Directive.Fault Filter :=
  match (Text.splitChar ',' s.toList).filter (!·.isEmpty) with
  | [] => .ok ⟨[.ofPart none .error]⟩
  | pieces => (pieces.mapM Directive.parse).map Filter.mk

/-- The filter of a run. In place of a malformed one the standard filter is taken; there is none
when a directive is cut within a character. -/
def choose (asked : Option String) (verbose : Bool) : Option Filter :=
  match asked.map parse with
  | some (.ok f) => some f
  | some (.error .splitCharacter) => none
  | some (.error .malformed) | none => some (standard verbose)

/-- The most specific directive for an event, the last of several. Directives that ask for a
span or for the value of a field are for no event, because no event lies in a span. -/
def directive? (f : Filter) (e : Event) : Option Directive :=
  (f.directives.filter fun d => d.isStatic && d.covers e).foldl (fun best d =>
    match best with
    | none => some d
    | some b => if b.givesWay d then some d else some b) none

/-- Whether an event passes. -/
def allows (f : Filter) (e : Event) : Bool :=
  match f.directive? e with
  | some d => e.severity.rank ≤ d.rank
  | none => false

/-- The lines of a log. -/
def lines (f : Filter) (events : List Event) : List String :=
  (events.filter f.allows).map Event.line

end Filter

end CqlGlue
