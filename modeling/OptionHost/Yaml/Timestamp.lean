import OptionHost.Number.Literal
import OptionHost.Value.Equality
import OptionHost.Yaml.Cursor

/-!
# Timestamps

A date, or a date with a time of day and a zone. What is written as a timestamp need not be
one of the calendar: that is a fault of its own, told apart from text of another form.
-/

namespace OptionHost.Yaml

/-- The zone of a time: universal time, or hours and minutes east or west of it. -/
inductive Zone where
  | universal
  | offset (west : Bool) (hours minutes : Nat)
  deriving DecidableEq, Repr, Inhabited

/-- A time of day. The fraction is kept as it is written. -/
structure Clock where
  hour : Nat
  minute : Nat
  second : Nat
  fraction : List Char
  zone : Option Zone
  deriving DecidableEq, Repr, Inhabited

structure Stamp where
  year : Nat
  month : Nat
  day : Nat
  clock : Option Clock
  deriving DecidableEq, Repr, Inhabited

namespace Stamp

/-- A number of between `least` and `most` digits, as many as there are. -/
def number? (least most : Nat) (s : List Char) : Option (Nat × List Char) :=
  let ds := (s.take most).takeWhile Literal.isDigit
  if ds.length < least then none
  else some (Text.digitsValue 10 (Literal.digits ds), s.drop ds.length)

def mark? (c : Char) : List Char → Option (List Char)
  | d :: rest => if d == c then some rest else none
  | [] => none

def skipBlanks (s : List Char) : List Char := s.dropWhile fun c => c == ' ' || c == '\t'

/-- The zone behind a time, if any; nothing may follow it. -/
def zone? (s : List Char) : Option (Option Zone) :=
  match s, skipBlanks s with
  | [], _ => some none
  | _, ['Z'] => some (some .universal)
  | _, sign :: rest => do
    guard (sign == '-' || sign == '+')
    let (hours, rest) ← number? 1 2 rest
    let minutes ←
      if rest.isEmpty then some 0
      else do
        let (minutes, rest) ← number? 2 2 (← mark? ':' rest)
        guard rest.isEmpty
        some minutes
    some (some (.offset (sign == '-') hours minutes))
  | _, [] => none

def clock? (s : List Char) : Option Clock := do
  let (hour, s) ← number? 1 2 s
  let (minute, s) ← number? 2 2 (← mark? ':' s)
  let (second, s) ← number? 2 2 (← mark? ':' s)
  let (fraction, s) :=
    match s with
    | '.' :: rest => (rest.takeWhile Literal.isDigit, rest.dropWhile Literal.isDigit)
    | s => ([], s)
  some ⟨hour, minute, second, fraction, ← zone? s⟩

/-- The clock behind a date: it follows a letter or blanks. -/
def clockPart? : List Char → Option (Option Clock)
  | [] => some none
  | c :: rest =>
    if c == 'T' || c == 't' then (clock? rest).map some
    else if c == ' ' || c == '\t' then (clock? (skipBlanks rest)).map some
    else none

def ofText? (s : List Char) : Option Stamp := do
  let (year, s) ← number? 4 4 s
  let (month, s) ← number? 1 2 (← mark? '-' s)
  let (day, s) ← number? 1 2 (← mark? '-' s)
  some ⟨year, month, day, ← clockPart? s⟩

/-- Whether a plain text is a timestamp. A date alone has two digits for month and day. -/
def isWritten (s : List Char) : Bool :=
  match ofText? s with
  | some stamp => stamp.clock.isSome || s.length == 10
  | none => false

def outside (message : String) : Except Fault Unit :=
  .error (.wrongValue (.stated message))

def checkDate (s : Stamp) : Except Fault Unit := do
  if s.year == 0 then outside "year 0 is out of range"
  if s.month == 0 || 12 < s.month then outside "month must be in 1..12"
  if s.day == 0 || Moment.daysInMonth s.year s.month < s.day then
    outside "day is out of range for month"

def checkClock (c : Clock) : Except Fault Unit := do
  if 23 < c.hour then outside "hour must be in 0..23"
  if 59 < c.minute then outside "minute must be in 0..59"
  if 59 < c.second then outside "second must be in 0..59"

/-- A span of minutes as days and seconds, the seconds not being negative. -/
def spanText (minutes : Int) : String :=
  let days := minutes.fdiv 1440
  let seconds := minutes.fmod 1440 * 60
  let parts :=
    (if days == 0 then [] else [s!"days={days}"]) ++
      (if seconds == 0 then [] else [s!"seconds={seconds}"])
  "datetime.timedelta(" ++ ", ".intercalate parts ++ ")"

/-- Minutes east of universal time, less than a day either way. -/
def offset (z : Zone) : Except Fault Int := do
  match z with
  | .universal => return 0
  | .offset west hours minutes =>
    let total : Int := hours * 60 + minutes
    let total := if west then -total else total
    if 1440 ≤ total.natAbs then
      outside ("offset must be a timedelta strictly between -timedelta(hours=24) and " ++
        "timedelta(hours=24), not " ++ spanText total ++ ".")
    return total

/-- The microseconds that a decimal fraction of a second stands for; further digits are cut. -/
def microseconds (fraction : List Char) : Nat :=
  let ds := fraction.take 6
  Text.digitsValue 10 (Literal.digits ds) * Nat.pow 10 (6 - ds.length)

/-- The date or moment that a timestamp stands for. -/
def toValue (s : Stamp) : Except Fault Value := do
  match s.clock with
  | none =>
    checkDate s
    return .date s.year s.month s.day
  | some c =>
    let offset ← c.zone.mapM offset
    checkDate s
    checkClock c
    return .moment ⟨s.year, s.month, s.day, c.hour, c.minute, c.second,
      microseconds c.fraction, offset⟩

end Stamp

end OptionHost.Yaml
