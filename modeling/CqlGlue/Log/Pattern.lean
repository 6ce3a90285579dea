import CqlGlue.Text.Alphanumeric
import CqlGlue.Text.Blank

/-!
# Patterns for the values of fields

A value that a directive asks for is a number, a truth value or a regular expression. Events
are not looked into, so here is decided only which texts can be asked for at all. A closing brace
ends a field and never reaches a value. So nothing is well formed that needs one: no counted
repetition, no property of characters with a longer name. Expressions may only be so high: the
parts of an expression are told apart as far as their heights need it.

## Main definitions
* `Pattern.isValue` tells which texts are numbers, truth values or regular expressions.
-/

namespace CqlGlue.Pattern

/-! ## Numbers -/

/-- Whether nothing or an exponent is left of a number. -/
def isExponent : List Char → Bool
  | [] => true
  | c :: cs =>
    let digits := match cs with
      | '+' :: digits | '-' :: digits => digits
      | digits => digits
    (c == 'e' || c == 'E') && !digits.isEmpty && digits.all Char.isDigit

/-- Whether a text is a number. -/
def isNumber (cs : List Char) : Bool :=
  let cs := match cs with
    | '+' :: cs | '-' :: cs => cs
    | cs => cs
  let whole := cs.takeWhile Char.isDigit
  let (fraction, rest) := match cs.dropWhile Char.isDigit with
    | '.' :: rest => (rest.takeWhile Char.isDigit, rest.dropWhile Char.isDigit)
    | rest => ([], rest)
  ["inf", "infinity", "nan"].contains (String.ofList (cs.map Char.toLower)) ||
    (!(whole.isEmpty && fraction.isEmpty) && isExponent rest)

/-! ## Modes -/

/-- How an expression is read. -/
structure Mode where
  /-- Blanks and comments are passed over. -/
  spaced : Bool
  /-- Its characters are those of Unicode, and not bytes. -/
  unicode : Bool
  deriving DecidableEq, Repr

/-- The mode at the start of an expression. -/
def Mode.initial : Mode := ⟨false, true⟩

/-- Passes over blanks and comments, `fuel` of them at most. -/
def skipFrom : Nat → List Char → List Char
  | 0, cs => cs
  | fuel + 1, cs =>
    match Text.trimLeft cs with
    | '#' :: rest => skipFrom fuel ((rest.dropWhile (· != '\n')).drop 1)
    | rest => rest

/-- Passes over what a mode passes over. -/
def Mode.skip (m : Mode) (cs : List Char) : List Char :=
  if m.spaced then skipFrom (cs.length + 1) cs else cs

/-- The character that a range looks for behind its hyphen. Where blanks are passed over, a mark
that begins a comment is passed over too, but not the comment. -/
def Mode.peek (m : Mode) (cs : List Char) : Option Char :=
  if m.spaced then
    match Text.trimLeft cs with
    | '#' :: rest => (Text.trimLeft rest).head?
    | rest => rest.head?
  else cs.head?

/-- The mode with a flag on or off. Other flags do not change what is well formed. -/
def Mode.set (m : Mode) (flag : Char) (on : Bool) : Mode :=
  match flag with
  | 'x' => { m with spaced := on }
  | 'u' => { m with unicode := on }
  | _ => m

/-- Takes flags up to the character that ends them. Flags behind a minus sign are off. `before`
holds the flags that have been taken, the last one first; none is given twice. -/
def flags? (before : List Char) (m : Mode) : List Char → Option (Mode × Char × List Char)
  | [] => none
  | c :: cs =>
    if c == ':' || c == ')' then if before.head? == some '-' then none else some (m, c, cs)
    else if before.contains c || !"-imsUuRx".toList.contains c then none
    else flags? (c :: before) (m.set c (!before.contains '-')) cs

/-! ## Heights -/

/-- How high an expression may be. -/
def heightLimit : Nat := 250

/-- Parts side by side. -/
structure Row where
  count : Nat
  /-- The height of the highest part. -/
  height : Nat
  /-- The height of the last part, if that can be repeated. -/
  last : Option Nat
  deriving DecidableEq, Repr

namespace Row

/-- No parts. -/
def empty : Row := ⟨0, 0, none⟩

/-- One more part, of a height. -/
def push (r : Row) (height : Nat) : Row := ⟨r.count + 1, max r.height height, some height⟩

/-- One more part, which cannot be repeated. -/
def pushFlags (r : Row) : Row := ⟨r.count + 1, r.height, none⟩

/-- The last part repeated, which makes it higher. -/
def repeated? (r : Row) : Option Row :=
  r.last.map fun h => ⟨r.count, max r.height (h + 1), some (h + 1)⟩

/-- The height of a row. A row of several parts is higher than its parts. -/
def total (r : Row) : Nat := if 1 < r.count then r.height + 1 else r.height

end Row

/-- Rows with marks between them that is being read: the last row, and the height of what
stands in front of the last mark. -/
structure Layer where
  before : Option Nat
  row : Row
  deriving DecidableEq, Repr

namespace Layer

/-- Nothing has been read. -/
def empty : Layer := ⟨none, .empty⟩

/-- Rows that are higher together than each alone. -/
def height (l : Layer) : Nat :=
  match l.before with
  | none => l.row.total
  | some before => max before l.row.total + 1

/-- Behind a mark between rows that stand beside each other. -/
def beside (l : Layer) : Layer := ⟨some (max (l.before.getD 0) l.row.total), .empty⟩

/-- Behind a mark that joins what is in front of it. -/
def joined (l : Layer) : Layer := ⟨some l.height, .empty⟩

/-- One more part in the last row. -/
def push (l : Layer) (height : Nat) : Layer := { l with row := l.row.push height }

end Layer

/-! ## Escapes -/

/-- What a backslash with its letters stands for, and what a class has as members. -/
inductive Item where
  | character (code : Nat)
  /-- One character of several. -/
  | several
  /-- A place between characters. -/
  | edge
  deriving DecidableEq, Repr

/-- Adds a hexadecimal digit to a number. -/
def addDigit? (n : Nat) (c : Char) : Option Nat :=
  if c.isDigit then some (16 * n + (c.toNat - '0'.toNat))
  else if 'a' ≤ c.toLower && c.toLower ≤ 'f' then some (16 * n + (c.toLower.toNat - 'a'.toNat + 10))
  else none

/-- Takes hexadecimal digits. -/
def digits? (m : Mode) : Nat → Nat → List Char → Option (Nat × List Char)
  | 0, n, cs => some (n, cs)
  | count + 1, n, cs =>
    match m.skip cs with
    | [] => none
    | c :: rest => (addDigit? n c).bind fun n => digits? m count n rest

/-- Takes the digits of an escaped character. -/
def numbered? (m : Mode) (count : Nat) (cs : List Char) : Option (Item × List Char) :=
  (digits? m count 0 cs).bind fun (n, rest) =>
    if n.isValidChar && (m.unicode || count != 2 || n < 0x80) then some (.character n, rest)
    else none

/-- Takes the one letter that names a property of characters. -/
def property? (m : Mode) (cs : List Char) : Option (Item × List Char) :=
  match m.skip cs with
  | c :: rest =>
    if m.unicode && "CLMNPSZ".toList.contains c.toUpper then some (.several, rest) else none
  | [] => none

/-- Takes an escape: what follows the backslash. Bytes beyond ASCII make no text, so they are
not to be asked for; edges of words can be asked for among bytes only. -/
def escape? (m : Mode) : List Char → Option (Item × List Char)
  | [] => none
  | 'x' :: cs => numbered? m 2 cs
  | 'u' :: cs => numbered? m 4 cs
  | 'U' :: cs => numbered? m 8 cs
  | 'p' :: cs | 'P' :: cs => property? m cs
  | c :: cs =>
    if "dsw".toList.contains c then some (.several, cs)
    else if "DSW".toList.contains c then if m.unicode then some (.several, cs) else none
    else if "Az".toList.contains c then some (.edge, cs)
    else if "bB<>".toList.contains c then if m.unicode then none else some (.edge, cs)
    else if "aftnrv".toList.contains c || (c.toNat < 0x80 && !c.isAlphanum) then
      some (.character c.toNat, cs)
    else none

/-! ## Classes -/

/-- The classes that have a name between colons. -/
def classNames : List String :=
  ["alnum", "alpha", "ascii", "blank", "cntrl", "digit", "graph", "lower", "print", "punct",
    "space", "upper", "word", "xdigit"]

/-- Takes a name between colons and its brackets, behind the first bracket. The first part tells
whether all else is meant. -/
def namedClass? : List Char → Option (Bool × List Char)
  | ':' :: cs =>
    let negated := cs.head? == some '^'
    let cs := if negated then cs.drop 1 else cs
    match cs.dropWhile (· != ':') with
    | ':' :: ']' :: rest =>
      if classNames.contains (String.ofList (cs.takeWhile (· != ':'))) then some (negated, rest)
      else none
    | _ => none
  | _ => none

/-- Takes a member of a class. -/
def member? (m : Mode) : List Char → Option (Item × List Char)
  | [] => none
  | '\\' :: cs => escape? m cs
  | c :: cs => some (.character c.toNat, cs)

/-- Whether an item can be a member of a class. -/
def isMember (m : Mode) : Item → Bool
  | .character n => m.unicode || n < 0x80
  | .several => true
  | .edge => false

/-- Takes a member of a class, or a range of members. A hyphen in front of a closing bracket or
of another hyphen makes no range. -/
def range? (m : Mode) (cs : List Char) : Option (List Char) :=
  (member? m cs).bind fun (first, rest) =>
    let alone := if isMember m first then some (m.skip rest) else none
    match m.skip rest with
    | '-' :: more =>
      if m.peek more == some ']' || m.peek more == some '-' then alone
      else
        (member? m (m.skip more)).bind fun (last, rest) =>
          match first, last with
          | .character a, .character b =>
            if a ≤ b && isMember m first && isMember m last then some rest else none
          | _, _ => none
    | _ => alone

/-- Takes hyphens as members of a class. -/
def hyphens (m : Mode) : Nat → Layer → List Char → Layer × List Char
  | 0, l, cs => (l, cs)
  | fuel + 1, l, cs =>
    match cs with
    | '-' :: rest => hyphens m fuel (l.push 0) (m.skip rest)
    | cs => (l, cs)

/-- Takes what a class may begin with, behind its bracket: a mark that all else is meant, then
hyphens or a closing bracket, which are members there. All else but bytes of ASCII is no text. -/
def classStart? (m : Mode) (cs : List Char) : Option (Layer × List Char) :=
  let cs := m.skip cs
  let negated := cs.head? == some '^'
  let cs := if negated then m.skip (cs.drop 1) else cs
  if negated && !m.unicode then none
  else if cs.head? == some ']' then some (Layer.empty.push 0, cs.drop 1)
  else some (hyphens m cs.length .empty cs)

/-- Takes the rest of a class and gives its height. `around` are the classes around it. -/
def members? (m : Mode) : Nat → Layer → List Layer → List Char → Option (Nat × List Char)
  | 0, _, _, _ => none
  | fuel + 1, l, around, cs =>
    match m.skip cs with
    | [] => none
    | '[' :: rest =>
      match namedClass? rest with
      | some (negated, rest) =>
        if negated && !m.unicode then none else members? m fuel (l.push 0) around rest
      | none => (classStart? m rest).bind fun (inner, rest) =>
        members? m fuel inner (l :: around) rest
    | ']' :: rest =>
      match around with
      | [] => some (l.height + 1, rest)
      | outer :: around => members? m fuel (outer.push (l.height + 1)) around rest
    | '&' :: '&' :: rest | '-' :: '-' :: rest | '~' :: '~' :: rest =>
      members? m fuel l.joined around rest
    | cs => (range? m cs).bind (members? m fuel (l.push 0) around)

/-- Takes a class behind its bracket and gives its height. -/
def class? (m : Mode) (cs : List Char) : Option (Nat × List Char) :=
  (classStart? m cs).bind fun (l, rest) => members? m (cs.length + 1) l [] rest

/-! ## Groups -/

/-- What an opening bracket begins. -/
inductive Opening where
  /-- A group, with the mode inside it and its name, if it has one. -/
  | group (inside : Mode) (name : Option (List Char))
  /-- No group but flags, for all that follows in the group around it. -/
  | flags (behind : Mode)

/-- Takes the name of a group with the bracket that ends it. -/
def groupName? (m : Mode) (cs : List Char) : Option (Opening × List Char) :=
  let isPart := fun c => Text.isAlphanumeric c || "_.[]".toList.contains c
  let name := cs.takeWhile (· != '>')
  match cs.dropWhile (· != '>') with
  | [] => none
  | _ :: rest =>
    if name.all isPart && name.head?.any fun c => !c.isDigit && !".[]".toList.contains c then
      some (.group m (some name), rest)
    else none

/-- Takes what stands behind an opening bracket in front of the content of a group. -/
def opening? (m : Mode) (cs : List Char) : Option (Opening × List Char) :=
  match m.skip cs with
  | '?' :: 'P' :: '<' :: cs | '?' :: '<' :: cs => groupName? m cs
  | '?' :: ')' :: _ => none
  | '?' :: cs =>
    (flags? [] m cs).map fun (inside, last, rest) =>
      (if last == ')' then .flags inside else .group inside none, rest)
  | cs => some (.group m none, cs)

/-! ## Expressions -/

/-- An expression that has been read up to a place. -/
structure State where
  mode : Mode
  layer : Layer
  /-- The groups around the place, with their modes. -/
  around : List (Mode × Layer)
  /-- The names of groups. -/
  names : List (List Char)

namespace State

/-- An expression that has not been read. -/
def initial : State := ⟨.initial, .empty, [], []⟩

/-- One more part, of a height. -/
def push (s : State) (height : Nat) : State := { s with layer := s.layer.push height }

/-- Opens a group, unless there is one of its name. -/
def opened? (s : State) : Opening → Option State
  | .flags m => some { s with mode := m, layer := { s.layer with row := s.layer.row.pushFlags } }
  | .group m name =>
    if name.any s.names.contains then none
    else some ⟨m, .empty, (s.mode, s.layer) :: s.around, name.toList ++ s.names⟩

/-- Closes a group. -/
def closed? (s : State) : Option State :=
  match s.around with
  | [] => none
  | (m, outer) :: around => some ⟨m, outer.push (s.layer.height + 1), around, s.names⟩

/-- Repeats the last part. -/
def repeated? (s : State) : Option State :=
  s.layer.row.repeated?.map fun row => { s with layer := { s.layer with row := row } }

/-- Takes one part of an expression. A question mark right behind a mark of repetition belongs
to it. -/
def take? (s : State) : List Char → Option (State × List Char)
  | [] => none
  | c :: cs =>
    match c with
    | '(' => (opening? s.mode cs).bind fun (o, rest) => (s.opened? o).map (·, rest)
    | ')' => s.closed?.map (·, cs)
    | '[' => (class? s.mode cs).map fun (height, rest) => (s.push height, rest)
    | '\\' => (escape? s.mode cs).map fun (_, rest) => (s.push 0, rest)
    | '|' => some ({ s with layer := s.layer.beside }, cs)
    | '*' | '+' | '?' => s.repeated?.map (·, if cs.head? == some '?' then cs.drop 1 else cs)
    | '\x7b' => none
    | '.' => if s.mode.unicode then some (s.push 0, cs) else none
    | _ => some (s.push 0, cs)

end State

/-- Whether the rest of an expression is well formed. -/
def isExpressionFrom : Nat → State → List Char → Bool
  | 0, _, _ => false
  | fuel + 1, s, cs =>
    match s.mode.skip cs with
    | [] => s.around.isEmpty && s.layer.height ≤ heightLimit
    | cs => (s.take? cs).any fun (s, rest) => isExpressionFrom fuel s rest

/-- Whether a text is a regular expression. -/
def isExpression (cs : List Char) : Bool :=
  isExpressionFrom (cs.length + 1) .initial cs

/-- Whether a text is a number, a truth value or a regular expression. -/
def isValue (cs : List Char) : Bool := isNumber cs || isExpression cs

end CqlGlue.Pattern
