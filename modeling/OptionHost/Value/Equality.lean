import OptionHost.Value.Basic

/-!
# Equality of values

Two values are the same when they would be one key of a mapping: truth values, integers and
floating-point numbers are compared as numbers, so `1`, `true` and `1.0` are one key, while
`nan` is not the same as itself. Lists and tuples are compared item by item and are never
the same as each other; mappings and sets are compared without regard to order.
-/

namespace OptionHost

namespace Moment

/-- Whether a year of the Gregorian calendar has a 29th of February. -/
def isLeapYear (year : Nat) : Bool :=
  year % 4 == 0 && (year % 100 != 0 || year % 400 == 0)

def daysInMonth (year month : Nat) : Nat :=
  match month with
  | 2 => if isLeapYear year then 29 else 28
  | 4 | 6 | 9 | 11 => 30
  | _ => 31

/-- The number of a day, counted from the first of January of the year one. -/
def dayNumber (year month day : Nat) : Nat :=
  let y := year - 1
  let before := (List.range (month - 1)).foldl (fun n k => n + daysInMonth year (k + 1)) 0
  y * 365 + y / 4 - y / 100 + y / 400 + before + day

/-- Microseconds since the beginning of the calendar, without the offset. -/
def microseconds (m : Moment) : Int :=
  (((dayNumber m.year m.month m.day * 24 + m.hour) * 60 + m.minute) * 60 + m.second : Nat) *
    1000000 + m.microsecond

/-- Moments without an offset are compared by the clock, moments with one in universal time. -/
def same (a b : Moment) : Bool :=
  match a.offset, b.offset with
  | none, none => a.microseconds == b.microseconds
  | some x, some y => a.microseconds - x * 60000000 == b.microseconds - y * 60000000
  | _, _ => false

end Moment

namespace Value

/-- The number that a truth value or an integer stands for. -/
def integer? : Value → Option Int
  | .bool b => some (if b then 1 else 0)
  | .int n => some n
  | _ => none

mutual

def same : Value → Value → Bool
  | .null, w => match w with
    | .null => true
    | _ => false
  | .bool b, w => match w with
    | .float y => y.sameInt (if b then 1 else 0)
    | w => w.integer? == some (if b then 1 else 0)
  | .int n, w => match w with
    | .float y => y.sameInt n
    | w => w.integer? == some n
  | .float x, w => match w with
    | .float y => x.same y
    | w => w.integer?.any x.sameInt
  | .text s, w => match w with
    | .text t => s == t
    | _ => false
  | .bytes a, w => match w with
    | .bytes b => a == b
    | _ => false
  | .list items, w => match w with
    | .list items' => sameItems items items'
    | _ => false
  | .tuple items, w => match w with
    | .tuple items' => sameItems items items'
    | _ => false
  | .dict entries, w => match w with
    | .dict entries' => entries.length == entries'.length && entriesWithin entries entries'
    | _ => false
  | .set items, w => match w with
    | .set items' => items.length == items'.length && itemsWithin items items'
    | _ => false
  | .date y m d, w => match w with
    | .date y' m' d' => y == y' && m == m' && d == d'
    | _ => false
  | .moment m, w => match w with
    | .moment m' => m.same m'
    | _ => false
  | .object _, _ => false
termination_by structural v => v

def sameItems : List Value → List Value → Bool
  | [], items' => items'.isEmpty
  | v :: rest, items' => match items' with
    | [] => false
    | v' :: rest' => same v v' && sameItems rest rest'
termination_by structural v => v

def itemsWithin : List Value → List Value → Bool
  | [], _ => true
  | v :: rest, items' => items'.any (same v) && itemsWithin rest items'
termination_by structural v => v

def entriesWithin : List (Value × Value) → List (Value × Value) → Bool
  | [], _ => true
  | e :: rest, entries' => entryWithin e entries' && entriesWithin rest entries'
termination_by structural v => v

def entryWithin : Value × Value → List (Value × Value) → Bool
  | (k, v), entries' => entries'.any fun e => same k e.1 && same v e.2
termination_by structural v => v

end

@[simp] theorem same_text (s t : String) : same (.text s) (.text t) = (s == t) := rfl

@[simp] theorem same_bool (a b : Bool) : same (.bool a) (.bool b) = (a == b) := by
  cases a <;> cases b <;> rfl

end Value

end OptionHost
