import CqlGlue.Log.Event
import CqlGlue.Log.Pattern
import CqlGlue.Text.Alphanumeric
import CqlGlue.Text.Blank
import CqlGlue.Text.Pieces

/-!
# Directives of a log filter

A directive says up to which rank events pass. Its longest form is `part[span]=level`, where a
field between braces may follow the name of the span or take its place. Without a part it holds
for all parts of the program, without a level everything passes, and a level alone is a
directive too.

## Main definitions
* `Directive` is a directive.
* `Directive.parse` reads one.
* `Directive.covers` tells for which events it counts.
-/

namespace CqlGlue

/-- A field that a directive asks for. -/
structure FieldDemand where
  name : String
  /-- Whether a value is asked for as well. -/
  hasValue : Bool
  deriving DecidableEq, Repr

/-- A directive: the severest events up to a rank, from the parts whose names begin with a
text. Rank nought lets nothing pass. -/
structure Directive where
  /-- What the name of a part begins with; none stands for all parts. -/
  part : Option String
  /-- The name of the span that events must lie in. -/
  span : Option String
  field : Option FieldDemand
  rank : Nat
  deriving DecidableEq, Repr

namespace Directive

/-- A directive for whole parts. -/
def ofPart (part : Option String) (s : Severity) : Directive := ⟨part, none, none, s.rank⟩

/-- The number that digits stand for, with a plus sign in front or without. -/
def digitsOf? (level : List Char) : Option Nat :=
  let digits := if level.head? == some '+' then level.drop 1 else level
  if digits.isEmpty || !digits.all Char.isDigit then none
  else some (digits.foldl (fun n c => 10 * n + (c.toNat - 48)) 0)

/-- The rank of a level that is written in letters of either case or as a number. -/
def rankOf? (level : List Char) : Option Nat :=
  match digitsOf? level with
  | some n => if n ≤ Severity.trace.rank then some n else none
  | none =>
    let name := String.ofList (level.map Char.toLower)
    [("off", 0), ("error", 1), ("warn", 2), ("info", 3), ("debug", 4), ("trace", 5)].lookup name

/-! ## Reading -/

/-- How far the reading of a directive has come, with the place where the part that is being
read began. -/
inductive Stage where
  | start
  /-- A level, or the name of a part. -/
  | levelOrPart
  | span (first : Nat)
  | field (first : Nat)
  /-- Behind the brace of a field. -/
  | fields
  /-- Behind the bracket of a span. -/
  | bracket
  | level (first : Nat)
  deriving DecidableEq, Repr

/-- Why a directive is not read. -/
inductive Fault where
  | malformed
  /-- A part of it begins or ends within a character. -/
  | splitCharacter
  deriving DecidableEq, Repr

/-- The part of the text of a directive between two of its bytes. -/
def slice (text : List Char) (first stop : Nat) : Except Fault (List Char) :=
  match (Text.takeBytes? stop text).bind (Text.dropBytes? first) with
  | some part => .ok part
  | none => .error .splitCharacter

/-- The demand for a field: its name, and behind an equals sign a pattern for its value. -/
def demandOf (text : List Char) : Except Fault FieldDemand :=
  match Text.splitChar '=' text with
  | [name] => if text.isEmpty then .error .malformed else .ok ⟨String.ofList name, false⟩
  | name :: value :: _ =>
    if Pattern.isValue value then .ok ⟨String.ofList name, true⟩ else .error .malformed
  | [] => .error .malformed

/-- Characters that a directive may begin with, an opening bracket apart. -/
def isFirst (c : Char) : Bool := ['-', ':', '_'].contains c || Text.isAlphanumeric c

/-- Reads the character at the `i`-th byte of the text of a directive. -/
def step (text : List Char) (i : Nat) (c : Char) (d : Directive) :
    Stage → Except Fault (Directive × Stage)
  | .start =>
    if c == '[' then .ok (d, .span (i + 1))
    else if isFirst c then .ok (d, .levelOrPart)
    else .error .malformed
  | .levelOrPart => do
    if c == '=' then
      return ({ d with part := some (String.ofList (← slice text 0 i)) }, .level (i + 1))
    else if c == '[' then
      return ({ d with part := some (String.ofList (← slice text 0 i)) }, .span (i + 1))
    else return (d, .levelOrPart)
  | .span first => do
    if c == ']' then
      return ({ d with span := some (String.ofList (← slice text first i)) }, .bracket)
    else if c == '\x7b' then
      let name ← slice text first i
      return ({ d with span := if name.isEmpty then none else some (String.ofList name) },
        .field (i + 1))
    else return (d, .span first)
  | .field first => do
    if c == '\x7d' then
      return ({ d with field := some (← demandOf (← slice text first i)) }, .fields)
    else return (d, .field first)
  | .fields => if c == ']' then .ok (d, .bracket) else .error .malformed
  | .bracket => if c == '=' then .ok (d, .level (i + 1)) else .error .malformed
  | .level first => .ok (d, .level first)

/-- Reads characters of the text of a directive from the `i`-th byte on. -/
def steps (text : List Char) :
    Nat → List Char → Directive × Stage → Except Fault (Directive × Stage)
  | _, [], s => .ok s
  | i, c :: cs, (d, stage) => (step text i c d stage).bind (steps text (i + c.utf8Size) cs)

/-- The directive that has been read when its text ends. -/
def finished (text : List Char) (d : Directive) : Stage → Except Fault Directive
  | .levelOrPart =>
    match rankOf? text with
    | some rank => .ok { d with part := none, rank := rank }
    | none => .ok { d with part := some (String.ofList text) }
  | .level first => do
    let level ← slice text first (Text.byteLength text)
    match level.isEmpty, rankOf? level with
    | true, _ => return d
    | false, some rank => return { d with rank := rank }
    | false, none => throw .malformed
  | .bracket => .ok d
  | _ => .error .malformed

/-- Reads a directive. Blanks around it are passed over when its characters are read, but count
when its parts are cut out: a directive with a blank in front names no part of the program, and
one with a blank in front and letters beyond ASCII may be cut within a letter. -/
def parse (text : List Char) : Except Fault Directive := do
  let (d, stage) ← steps text 0 (Text.trim text) (.ofPart none .trace, .start)
  finished text d stage

/-! ## Applying -/

/-- Whether a directive can be decided for an event without knowing where it happened and what
its fields hold. -/
def isStatic (d : Directive) : Bool := d.span.isNone && d.field.all (!·.hasValue)

/-- Whether a directive is for an event: its part, and the field that has to be there. -/
def covers (d : Directive) (e : Event) : Bool :=
  d.part.all (fun p => p.toList.isPrefixOf e.source.toList) &&
    d.field.all fun f => f.name == "message" || e.fields.any (·.1 == f.name)

/-- How specific the part of a directive is. -/
def partPrecision (d : Directive) : Nat :=
  match d.part with
  | none => 0
  | some p => p.utf8ByteSize + 1

/-- Whether a directive gives way to another: to one with a longer part, among equals to one
with a field, and among fields to a later name. -/
def givesWay (d other : Directive) : Bool :=
  if d.partPrecision != other.partPrecision then d.partPrecision < other.partPrecision
  else
    match d.field, other.field with
    | none, _ => true
    | some _, none => false
    | some f, some g => f.name ≤ g.name

end Directive

end CqlGlue
