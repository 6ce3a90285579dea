import CqlGlue.Toml.Digit
import CqlGlue.Toml.Fault

/-!
# Dates and times

A moment is a date, a time of day, or both, and both may have an offset from universal time.
A moment is written in one way only, whatever spelling it was read from: with capitals, a `T`
between date and time, and no zeros at the end of a fraction of a second.

## Main definitions
* `Moment` is a date, a time or both.
* `Moment.ofChars` reads one, or tells the first thing that is wrong.
* `Moment.text` writes one.
-/

namespace CqlGlue.Toml

/-- A day of the calendar. -/
structure Date where
  year : Nat
  month : Nat
  day : Nat
  deriving DecidableEq, Repr

/-- A time of day. Seconds may be left out, and so may their fraction. -/
structure Time where
  hour : Nat
  minute : Nat
  second : Option Nat
  /-- A fraction of a second in units of `10 ^ -9`. -/
  nanosecond : Option Nat
  deriving DecidableEq, Repr

/-- An offset from universal time. -/
inductive Offset where
  | universal
  | minutes (m : Int)
  deriving DecidableEq, Repr

/-- A date, a time or both. -/
structure Moment where
  date : Option Date
  time : Option Time
  offset : Option Offset
  deriving DecidableEq, Repr

/-! ## Writing -/

/-- Digits with zeros in front up to a width. -/
def paddedText (width n : Nat) : String :=
  String.ofList (List.leftpad width '0' (Nat.toDigits 10 n))

/-- A text without the zeros at its end, but not empty. -/
def withoutLastZeros (cs : List Char) : List Char :=
  match (cs.reverse.dropWhile (· == '0')).reverse with
  | [] => ['0']
  | kept => kept

/-- A date as text. -/
def Date.text (d : Date) : String :=
  paddedText 4 d.year ++ "-" ++ paddedText 2 d.month ++ "-" ++ paddedText 2 d.day

/-- A fraction of a second as text. -/
def fractionText (n : Nat) : String :=
  "." ++ String.ofList (withoutLastZeros (paddedText 9 n).toList)

/-- A time of day as text. -/
def Time.text (t : Time) : String :=
  paddedText 2 t.hour ++ ":" ++ paddedText 2 t.minute ++
    match t.second with
    | none => ""
    | some s => ":" ++ paddedText 2 s ++ (t.nanosecond.map fractionText).getD ""

/-- An offset as text. -/
def Offset.text : Offset → String
  | universal => "Z"
  | minutes m =>
    (if m < 0 then "-" else "+") ++ paddedText 2 (m.natAbs / 60) ++ ":" ++
      paddedText 2 (m.natAbs % 60)

/-- A moment as text. -/
def Moment.text (m : Moment) : String :=
  (m.date.map Date.text).getD "" ++ (if m.date.isSome && m.time.isSome then "T" else "") ++
    (m.time.map Time.text).getD "" ++ (m.offset.map Offset.text).getD ""

/-! ## Reading -/

/-- The parts that a moment is read from. -/
inductive MomentToken where
  | digits (cs : List Char)
  | mark (c : Char)
  deriving DecidableEq, Repr

/-- The tokens of a text: its runs of digits, and its other characters. -/
def momentTokens : List Char → List MomentToken
  | [] => []
  | c :: cs =>
    if c.isDigit then
      .digits (c :: cs.takeWhile Char.isDigit) :: momentTokens (cs.dropWhile Char.isDigit)
    else .mark c :: momentTokens cs
  termination_by cs => cs.length
  decreasing_by
    · have := (List.dropWhile_sublist Char.isDigit (l := cs)).length_le
      simp only [List.length_cons]
      omega
    · simp only [List.length_cons]
      omega

/-- A reader of moments takes tokens off the front or finds a cause. -/
abbrev MomentReader := StateT (List MomentToken) (Except Cause)

namespace MomentReader

/-- Finds what is wrong with a part. -/
def fail {α : Type} (part hope : Option String) : MomentReader α :=
  fun _ => .error (.moment part hope)

/-- A run of digits. -/
def digits (part : Option String) (hope : String) : MomentReader (List Char)
  | .digits cs :: ts => .ok (cs, ts)
  | _ => .error (.moment part hope)

/-- One of several marks. -/
def mark (marks : List Char) (part : Option String) (hope : String) : MomentReader Char
  | .mark c :: ts => if marks.contains c then .ok (c, ts) else .error (.moment part hope)
  | _ => .error (.moment part hope)

/-- Whether a mark comes next. -/
def isNext (c : Char) : MomentReader Bool := fun ts => .ok (ts.head? == some (.mark c), ts)

/-- Whether nothing is left. -/
def isDone : MomentReader Bool := fun ts => .ok (ts.isEmpty, ts)

/-- Requires that a condition holds of a part. -/
def require (b : Bool) (part hope : String) : MomentReader Unit :=
  if b then pure () else fail (some part) (some hope)

/-- The number of days of a month. -/
def daysIn (year month : Nat) : Nat :=
  if month == 2 then
    if year % 4 == 0 && (year % 100 != 0 || year % 400 == 0) then 29 else 28
  else if [4, 6, 9, 11].contains month then 30
  else 31

/-- The rest of a date whose year has been read. -/
def dateAfter (year : List Char) : MomentReader Date := do
  let month ← digits "date" "month"
  let _ ← mark ['-'] "date" "`-` (MM-DD)"
  let day ← digits "date" "day"
  require (year.length == 4) "date" "a four-digit year (YYYY)"
  require (month.length == 2) "date" "a two-digit month (MM)"
  require (day.length == 2) "date" "a two-digit day (DD)"
  let d : Date := ⟨ofDigits 10 year, ofDigits 10 month, ofDigits 10 day⟩
  require (1 ≤ d.month && d.month ≤ 12) "date" "month between 01 and 12"
  let days := daysIn d.year d.month
  require (1 ≤ d.day && d.day ≤ days) "date" ("day between 01 and " ++ toString days)
  return d

/-- The first nine digits of a fraction. -/
def nanoseconds (cs : List Char) : Nat := ofDigits 10 ((cs ++ List.replicate 9 '0').take 9)

/-- The fraction of a second, if there is one. -/
def fraction? : MomentReader (Option (List Char)) := do
  if ← isNext '.' then
    let _ ← mark ['.'] none ""
    return some (← digits "time" "nanosecond")
  else return none

/-- The seconds and their fraction, as far as they are there. -/
def seconds? : MomentReader (Option (List Char) × Option (List Char)) := do
  if ← isNext ':' then
    let _ ← mark [':'] none ""
    let second ← digits "time" "second"
    return (some second, ← fraction?)
  else return (none, none)

/-- A time of day. -/
def time : MomentReader Time := do
  let hour ← digits "time" "hour"
  let _ ← mark [':'] "time" "`:` (HH:MM)"
  let minute ← digits "time" "minute"
  let (second, fraction) ← seconds?
  require (hour.length == 2) "time" "a two-digit hour (HH)"
  require (minute.length == 2) "time" "a two-digit minute (MM)"
  require (second.all (·.length == 2)) "time" "a two-digit second (SS)"
  let t : Time := ⟨ofDigits 10 hour, ofDigits 10 minute, second.map (ofDigits 10),
    fraction.map nanoseconds⟩
  require (t.hour ≤ 23) "time" "hour between 00 and 23"
  require (t.minute ≤ 59) "time" "minute between 00 and 59"
  require (t.second.all (· ≤ 60)) "time" "second between 00 and 60"
  return t

/-- An offset from universal time, if there is one. -/
def offset? : MomentReader (Option Offset) := do
  if ← isDone then return none
  else
    let sign ← mark ['Z', 'z', '+', '-'] "offset" "`Z`, +OFFSET, -OFFSET"
    if sign == 'Z' || sign == 'z' then return some .universal
    else
      let hours ← digits "offset" "hour"
      let _ ← mark [':'] "offset" "`:` (HH:MM)"
      let minutes ← digits "offset" "minute"
      require (hours.length == 2) "offset" "a two-digit hour (HH)"
      require (minutes.length == 2) "offset" "a two-digit minute (MM)"
      require (ofDigits 10 hours ≤ 23) "offset" "hours between 00 and 23"
      require (ofDigits 10 minutes ≤ 59) "offset" "minutes between 00 and 59"
      let m : Int := ofDigits 10 hours * 60 + ofDigits 10 minutes
      return some (.minutes (if sign == '-' then -m else m))

/-- A moment that begins with a date whose year has been read. -/
def dated (year : List Char) : MomentReader Moment := do
  let d ← dateAfter year
  if ← isDone then return ⟨some d, none, none⟩
  else
    let _ ← mark ['T', 't', ' '] "date-time" "`T` between date and time"
    let t ← time
    return ⟨some d, some t, ← offset?⟩

/-- A moment. What its first digits are, a year or an hour, is told by the mark behind them. -/
def moment : MomentReader Moment := do
  let all ← get
  let first ← digits none "year or hour"
  if (← mark ['-', ':'] none "`-` (YYYY-MM) or `:` (HH:MM)") == '-' then dated first
  else
    set all
    return ⟨none, some (← time), none⟩

end MomentReader

/-- Reads a moment that fills a text. -/
def Moment.ofChars (cs : List Char) : Except Cause Moment :=
  match MomentReader.moment (momentTokens cs) with
  | .error c => .error c
  | .ok (m, []) => .ok m
  | .ok (_, _ :: _) => .error (.moment none none)

end CqlGlue.Toml
