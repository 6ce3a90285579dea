import CqlGlue.Bindings.Verbosity
import CqlGlue.CommandLine.Usage
import CqlGlue.Text.Pieces

/-!
# Reading a command line

The words of a command line are read one by one. A value is not settled when it comes, but when
the next option or argument comes or the line ends; until then it is pending, and so is an
option that still waits for its value. Of two faults the one that is met first is reported, and
a word that fits nowhere hides the faults of what is pending.

## Main definitions
* `Word` is the shape of a word.
* `State` is what has been read of one command, `State.step` reads a word.
* `readCommand` reads the words of a command, `readMain` those before it.
-/

namespace CqlGlue.CommandLine

/-- The shape of a word. -/
inductive Word where
  /-- Two hyphens: whatever follows is an argument. -/
  | escape
  | long (name : String) (value : Option String)
  | shorts (letters : List Char)
  | plain
  deriving DecidableEq, Repr

/-- The shape of a word. A hyphen alone is an argument. -/
def Word.ofText (s : String) : Word :=
  match s.toList with
  | ['-', '-'] => escape
  | '-' :: '-' :: cs =>
    match Text.splitFirst ['='] cs with
    | some (name, value) => long (String.ofList name) (some (String.ofList value))
    | none => long (String.ofList cs) none
  | '-' :: c :: cs => shorts (c :: cs)
  | _ => plain

/-- What has been read of a command. -/
structure State where
  /-- The keys that are settled, with their values. -/
  given : List (Key × List String) := []
  /-- What is not settled yet: a key, and its value if that has come. -/
  pending : Option (Key × Option String) := none
  /-- Whether only arguments can follow. -/
  escaped : Bool := false
  /-- Whether the argument without an option has come. -/
  placed : Bool := false
  deriving DecidableEq, Repr

namespace State

/-- Whether a key has been given. -/
def has (s : State) (k : Key) : Bool := s.given.any (·.1 == k)

/-- The values of a key, from all times it was given. -/
def values (s : State) (k : Key) : List String :=
  (s.given.filter (·.1 == k)).flatMap (·.2)

/-- The value of a key that is given once. -/
def value? (s : State) (k : Key) : Option String := (s.values k).head?

/-- Whether an option waits for its value. -/
def awaits (s : State) : Bool :=
  match s.pending with
  | some (_, none) => true
  | _ => false

/-- Notes a key as settled. -/
def note (s : State) (k : Key) (values : List String) : State :=
  { s with given := s.given ++ [(k, values)] }

/-- Settles a key with its value. -/
def record (s : State) (k : Key) (v : String) : Except UsageError State :=
  if !k.repeats && s.has k then .error (.repeated k)
  else
    match k.kind with
    | .path => if v.isEmpty then .error (.emptyPath k) else .ok (s.note k [v])
    | .level =>
      match Verbosity.ofName? v with
      | some _ => .ok (s.note k [v])
      | none => .error (.badVerbosity v)
    | .texts => .ok (s.note k (Text.pieces ',' v))
    | _ => .ok (s.note k [v])

/-- Settles what is pending. -/
def settle (s : State) : Except UsageError State :=
  match s.pending with
  | none => .ok s
  | some (k, none) => .error (.missingValue k)
  | some (k, some v) => { s with pending := none }.record k v

/-- Reads an option that takes no value. -/
def raise (s : State) (k : Key) : Except UsageError State := do
  let s ← s.settle
  match k.kind with
  | .help => .error .helpAsked
  | .version => .error .versionAsked
  | _ => if s.has k then .error (.repeated k) else .ok (s.note k [])

/-- Reads an option whose value is the next word. -/
def await (s : State) (k : Key) : Except UsageError State := do
  let s ← s.settle
  return { s with pending := some (k, none) }

/-- Reads an option whose value is part of its word. -/
def attach (s : State) (k : Key) (v : String) : Except UsageError State := do
  let s ← s.settle
  s.record k v

/-- Reads a long option. -/
def readLong (spec : Spec) (s : State) (name : String) (value : Option String) :
    Except UsageError State :=
  match spec.longs.lookup name with
  | none => .error (.unknownOption name)
  | some k =>
    match k.takesValue, value with
    | true, some v => s.attach k v
    | true, none => s.await k
    | false, some _ => .error (.unwantedValue k)
    | false, none => s.raise k

/-- Reads letters. What follows the letter of an option that takes a value is the value, less
an equals sign before it. -/
def readShorts (spec : Spec) : List Char → State → Except UsageError State
  | [], s => .ok s
  | c :: cs, s =>
    match spec.shorts.lookup c with
    | none => .error (.unknownOption (String.ofList [c]))
    | some k =>
      if k.takesValue then
        match cs with
        | [] => s.await k
        | '=' :: v => s.attach k (String.ofList v)
        | v => s.attach k (String.ofList v)
      else do readShorts spec cs (← s.raise k)

/-- Reads an argument. Where commands are expected an argument that is no command is reported
as such, unless it is one and stands after the escape. -/
def place (spec : Spec) (s : State) (text : String) : Except UsageError State :=
  match spec.positional, s.placed with
  | some k, false => do
    let s ← s.settle
    return { s with pending := some (k, some text), placed := true }
  | some _, true => .error (.unknownArgument text)
  | none, _ =>
    if s.escaped && (text == "help" || (Subcommand.ofName? text).isSome) then
      .error (.unknownArgument text)
    else .error (.unknownCommand text)

/-- Reads a word. -/
def step (spec : Spec) (s : State) (text : String) : Except UsageError State :=
  if s.escaped then s.place spec text
  else
    match Word.ofText text with
    | .escape => .ok { s with escaped := true }
    | .long name value => s.readLong spec name value
    | .shorts letters => readShorts spec letters s
    | .plain =>
      match s.pending with
      | some (k, none) => .ok { s with pending := some (k, some text) }
      | _ => s.place spec text

end State

/-- Reads the words of a command to the end. -/
def readCommand (spec : Spec) : List String → State → Except UsageError State
  | [], s => s.settle
  | text :: rest, s => do readCommand spec rest (← s.step spec text)

/-- What asking for help on commands ends with. -/
def helpOn : List String → UsageError
  | [] => .helpAsked
  | [text] =>
    if text == "help" || (Subcommand.ofName? text).isSome then .helpAsked
    else .unknownCommand text
  | _ :: text :: _ => .unknownCommand text

/-- Reads the words up to a command; gives the command and the words after it. The value of an
option is never taken for a command. -/
def readMain : List String → State → Except UsageError (State × Option (Subcommand × List String))
  | [], s => .ok (s, none)
  | text :: rest, s =>
    if !s.escaped && !s.awaits then
      if text == "help" then .error (helpOn rest)
      else
        match Subcommand.ofName? text with
        | some c => .ok (s, some (c, rest))
        | none => do readMain rest (← s.step mainSpec text)
    else do readMain rest (← s.step mainSpec text)

end CqlGlue.CommandLine
