/-!
# What can be wrong with a document

A text that is no TOML document is refused with one fault: a cause and the stretch of text it
lies in. Causes are listed by the part of the document they concern.

## Main definitions
* `Span` is a stretch of text.
* `Cause` lists the causes, `Cause.message` their wording.
* `Fault` is a cause with its place.
-/

namespace CqlGlue.Toml

/-- A stretch of text, in bytes from its start. -/
structure Span where
  first : Nat
  stop : Nat
  deriving DecidableEq, Repr

/-- The empty stretch at a place. -/
def Span.at (n : Nat) : Span := ⟨n, n⟩

/-- The empty stretch in front of a stretch. -/
def Span.before (s : Span) : Span := .at s.first

/-- The empty stretch behind a stretch. -/
def Span.after (s : Span) : Span := .at s.stop

/-- How a text between quotes is written. -/
inductive Quotation where
  /-- Between single quotes. -/
  | literal
  /-- Between double quotes. -/
  | basic
  /-- Between three single quotes each, over several lines. -/
  | longLiteral
  /-- Between three double quotes each, over several lines. -/
  | longBasic
  deriving DecidableEq, Repr

/-- What a text between quotes is called. -/
def Quotation.label : Quotation → String
  | literal => "literal string"
  | basic => "basic string"
  | longLiteral => "multi-line literal string"
  | longBasic => "multi-line basic string"

/-- The quotes that open and close a text. -/
def Quotation.mark : Quotation → List Char
  | literal => ['\'']
  | basic => ['"']
  | longLiteral => ['\'', '\'', '\'']
  | longBasic => ['"', '"', '"']

/-- The bases of integers. -/
inductive Base where
  | two
  | eight
  | ten
  | sixteen
  deriving DecidableEq, Repr

namespace Base

/-- The value of a base. -/
def value : Base → Nat
  | two => 2
  | eight => 8
  | ten => 10
  | sixteen => 16

/-- What an integer of a base is called. -/
def label : Base → String
  | two => "binary"
  | eight => "octal"
  | ten => "integer"
  | sixteen => "hexadecimal"

/-- The letter behind the zero that announces a base. -/
def letter : Base → Char
  | two => 'b'
  | eight => 'o'
  | ten => 'd'
  | sixteen => 'x'

end Base

/-- The words that are values. -/
inductive Word where
  | yes
  | no
  | infinity
  | notANumber
  deriving DecidableEq, Repr

/-- The spelling of a word. -/
def Word.text : Word → String
  | yes => "true"
  | no => "false"
  | infinity => "inf"
  | notANumber => "nan"

/-- The parts of a float that are made of digits. -/
inductive FloatPart where
  | mantissa
  | fraction
  | exponent
  deriving DecidableEq, Repr

/-- What a part of a float is called. -/
def FloatPart.label : FloatPart → String
  | mantissa => "mantissa"
  | fraction => "fraction"
  | exponent => "exponent"

/-- The steps of an entry between braces. -/
inductive EntryStep where
  | key
  | equals
  | value
  | comma
  deriving DecidableEq, Repr

/-- What is hoped for at a step of an entry. -/
def EntryStep.hope : EntryStep → String
  | key => "key"
  | equals => "`=`"
  | value => "value"
  | comma => "`,`"

/-- What can be wrong with a text that is no document. -/
inductive Cause where
  /-- A carriage return without a line feed. -/
  | loneReturn
  | commentCharacter
  -- Lines.
  | headerNotOpened
  | headerNotClosed
  | elementHeaderNotClosed
  /-- One of the two brackets is there. -/
  | elementHeaderHalfClosed
  | entryWithoutKey
  | keyWithoutEquals
  | dotWithoutEquals
  | secondEquals
  | textAfterLine
  -- Arrays and tables between braces.
  | tooDeep
  | arrayNotOpened
  | arrayNotClosed
  | commaInArray
  | equalsInArray
  | noCommaInArray
  | bracesNotOpened
  | bracesNotClosed
  | commaInBraces (step : EntryStep)
  | equalsInBraces (step : EntryStep)
  | noKeyInBraces (step : EntryStep)
  | noEqualsInBraces
  | noCommaInBraces
  | bracketInBraces (step : EntryStep)
  -- Keys.
  | emptyKey
  | keyCharacter
  | longKey (quotation : Quotation)
  | tooManyKeys
  | duplicateKey
  /-- A dotted key or a header leads through a value of this kind. -/
  | notExtensible (kind : String)
  -- Strings.
  | quoteMissing (quotation : Quotation)
  | stringCharacter (quotation : Quotation)
  | unknownEscape
  | fewEscapeDigits
  | escapeNumber
  | noLineEndAfterBackslash
  -- Values without quotes.
  | openingQuoteMissing (quotation : Quotation)
  | notQuoted
  | notWord (word : Word)
  | secondSign
  | leadingZero
  | signedBase
  | upperCaseBase (base : Base)
  | decimalBase
  | signAfterBase
  | baseDigit (base : Base)
  | underscore
  | noDigits (part : FloatPart)
  | textAfterFloat
  /-- A date or a time: the part of it that is wrong, and what was hoped for. -/
  | moment (part hope : Option String)
  deriving DecidableEq, Repr

namespace Cause

/-- Characters of keys without quotes, as messages list them. -/
def keyHopes : List String := ["letters", "numbers", "`-`", "`_`"]

/-- What may follow a backslash, as messages list it. -/
def escapeHopes : List String :=
  ["`b`", "`e`", "`f`", "`n`", "`r`", "`\\`", "`\"`", "`x`", "`u`", "`U`"]

/-- The characters of a quoted text, as messages list them. -/
def characterHopes : Quotation → List String
  | .literal => ["non-single-quote visible characters"]
  | .basic => ["non-double-quote visible characters", "`\\`"]
  | .longLiteral => ["non-single-quote characters"]
  | .longBasic => ["`\\`", "characters"]

/-- A quote as messages show it. -/
def quoteHope (mark : List Char) : String := "`" ++ String.ofList mark ++ "`"

/-- What is wrong, and what was hoped for where that can be said. -/
def wording : Cause → String × Option (List String)
  | loneReturn => ("carriage return must be followed by newline", some ["newline"])
  | commentCharacter => ("invalid comment character", some ["printable characters"])
  | headerNotOpened => ("missing table open", some ["`[`"])
  | headerNotClosed => ("unclosed table", some ["`]`"])
  | elementHeaderNotClosed => ("unclosed array table", some ["`]]`"])
  | elementHeaderHalfClosed => ("unclosed array table", some ["`]`"])
  | entryWithoutKey => ("invalid key-value pair", some ["key"])
  | keyWithoutEquals => ("key with no value", some ["`=`"])
  | dotWithoutEquals => ("missing value for key", some ["`=`"])
  | secondEquals => ("extra `=`", some [])
  | textAfterLine => ("unexpected key or value", some ["newline", "`#`"])
  | tooDeep => ("cannot recurse further; max recursion depth met", none)
  | arrayNotOpened => ("missing array opening", some ["`[`"])
  | arrayNotClosed => ("unclosed array", some ["`]`"])
  | commaInArray => ("extra comma in array", some ["value"])
  | equalsInArray => ("unexpected `=` in array", some ["value", "`]`"])
  | noCommaInArray => ("missing comma between array elements", some ["`,`"])
  | bracesNotOpened => ("missing inline table opening", some ["`\x7b`"])
  | bracesNotClosed => ("unclosed inline table", some ["`\x7d`"])
  | commaInBraces step => ("extra comma in inline table", some [step.hope])
  | equalsInBraces step => ("extra assignment between key-value pairs", some [step.hope])
  | noKeyInBraces step => ("missing key for inline table element", some [step.hope])
  | noEqualsInBraces => ("missing assignment between key-value pairs", some ["`=`"])
  | noCommaInBraces => ("missing comma between key-value pairs", some ["`,`"])
  | bracketInBraces step => ("invalid inline table element", some [step.hope])
  | emptyKey => ("unquoted keys cannot be empty", some keyHopes)
  | keyCharacter => ("invalid unquoted key", some keyHopes)
  | longKey q =>
    ("keys cannot be " ++ q.label ++ "s", some [Quotation.basic.label, Quotation.literal.label])
  | tooManyKeys => ("recursion limit", none)
  | duplicateKey => ("duplicate key", none)
  | notExtensible kind => ("cannot extend value of type " ++ kind ++ " with a dotted key", none)
  | quoteMissing q => ("invalid " ++ q.label, some [quoteHope (q.mark.take 1)])
  | stringCharacter q => ("invalid " ++ q.label, some (characterHopes q))
  | unknownEscape => ("missing escaped value", some escapeHopes)
  | fewEscapeDigits => ("too few unicode value digits", some ["unicode hexadecimal value"])
  | escapeNumber => ("invalid value", some ["unicode hexadecimal value"])
  | noLineEndAfterBackslash => ("invalid " ++ Quotation.longBasic.label, some ["newline"])
  | openingQuoteMissing q => ("missing opening quote", some [quoteHope q.mark])
  | notQuoted => ("string values must be quoted", some ["literal string"])
  | notWord .yes => ("invalid boolean", some ["`true`"])
  | notWord .no => ("invalid boolean", some ["`false`"])
  | notWord .infinity => ("invalid float", some ["`inf`"])
  | notWord .notANumber => ("invalid float", some ["`nan`"])
  | secondSign => ("redundant numeric sign", some [])
  | leadingZero => ("unexpected leading zero", some [])
  | signedBase => ("integers with a radix cannot be signed", some [])
  | upperCaseBase b => ("radix must be lowercase", some ["`0" ++ b.letter.toString ++ "`"])
  | decimalBase => ("redundant integer number prefix", some [])
  | signAfterBase => ("unexpected sign", some [])
  | baseDigit b => ("invalid " ++ b.label ++ " number", none)
  | underscore => ("`_` may only go between digits", some [])
  | noDigits part => ("invalid " ++ part.label, some ["digits"])
  | textAfterFloat => ("invalid float", some [])
  | moment part hope => ("invalid " ++ part.getD "datetime", hope.map ([·]))

/-- The wording of a cause. -/
def message (c : Cause) : String :=
  match c.wording with
  | (what, none) => what
  | (what, some []) => what ++ ", expected nothing"
  | (what, some hopes) => what ++ ", expected " ++ String.intercalate ", " hopes

end Cause

/-- A cause and where it lies. -/
structure Fault where
  cause : Cause
  span : Span
  deriving DecidableEq, Repr

/-- Where a fault is shown. A key with too many dots is not shown. -/
def Fault.place? (f : Fault) : Option Span :=
  match f.cause with
  | .tooManyKeys => none
  | _ => some f.span

end CqlGlue.Toml
