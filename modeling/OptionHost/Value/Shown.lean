import OptionHost.Value.Basic
import OptionHost.Number.Shortest
import OptionHost.Text.Quoted

/-!
# Values as text

The text of a value as messages quote it, and the calendar texts of dates and moments. An integer
of too many digits is not written, so a value that holds one has no text.
-/

namespace OptionHost

/-- The most digits that the text of an integer may have. -/
def digitLimit : Nat := 4300

namespace Moment

def padded (width n : Nat) : List Char := Binary64.padLeft width (Text.decimal n)

def calendar (year month day : Nat) : List Char :=
  padded 4 year ++ '-' :: padded 2 month ++ '-' :: padded 2 day

def offsetText (minutes : Int) : List Char :=
  (if minutes < 0 then '-' else '+') :: padded 2 (minutes.natAbs / 60) ++
    ':' :: padded 2 (minutes.natAbs % 60)

/-- Date and time in the extended format, the fraction of a second only where there is one. -/
def iso (m : Moment) : List Char :=
  calendar m.year m.month m.day ++ 'T' :: padded 2 m.hour ++ ':' :: padded 2 m.minute ++
    ':' :: padded 2 m.second ++
    (if m.microsecond == 0 then [] else '.' :: padded 6 m.microsecond) ++
    (m.offset.map offsetText).getD []

end Moment

namespace Value

def joined (separator : List Char) : List (List Char) → List Char
  | [] => []
  | [s] => s
  | s :: rest => s ++ separator ++ joined separator rest

def call (name : String) (arguments : List (List Char)) : List Char :=
  name.toList ++ '(' :: joined ", ".toList arguments ++ [')']

/-- An offset as the constructor calls that would make it. -/
def shownOffset (minutes : Int) : List Char :=
  if minutes == 0 then "tzinfo=datetime.timezone.utc".toList
  else
    let days := minutes.fdiv 1440
    let seconds := minutes.fmod 1440 * 60
    let arguments :=
      (if days == 0 then [] else ["days=".toList ++ Text.decimalInt days]) ++
      (if seconds == 0 then [] else ["seconds=".toList ++ Text.decimalInt seconds])
    "tzinfo=".toList ++ call "datetime.timezone" [call "datetime.timedelta" arguments]

def shownMoment (m : Moment) : List Char :=
  let always := [m.year, m.month, m.day, m.hour, m.minute]
  let numbers :=
    if m.microsecond != 0 then always ++ [m.second, m.microsecond]
    else if m.second != 0 then always ++ [m.second] else always
  call "datetime.datetime"
    (numbers.map Text.decimal ++ (m.offset.map fun o => [shownOffset o]).getD [])

mutual

/-- The characters of a value as messages quote it. -/
def shownChars : Value → List Char
  | .null => "None".toList
  | .bool b => if b then "True".toList else "False".toList
  | .int n => Text.decimalInt n
  | .float x => x.shown
  | .text s => Text.quoted s.toList
  | .bytes b => Text.quotedOctets b
  | .list items => '[' :: joined ", ".toList (shownItems items) ++ [']']
  | .tuple items => match items with
    | [v] => '(' :: shownChars v ++ [',', ')']
    | items => '(' :: joined ", ".toList (shownItems items) ++ [')']
  | .dict entries => '\x7b' :: joined ", ".toList (shownEntries entries) ++ ['\x7d']
  | .set items =>
    if items.isEmpty then "set()".toList
    else '\x7b' :: joined ", ".toList (shownItems items) ++ ['\x7d']
  | .date y m d => call "datetime.date" ([y, m, d].map Text.decimal)
  | .moment m => shownMoment m
  | .object name => '<' :: name.toList ++ " object>".toList
termination_by structural v => v

def shownItems : List Value → List (List Char)
  | [] => []
  | v :: rest => shownChars v :: shownItems rest
termination_by structural v => v

def shownEntries : List (Value × Value) → List (List Char)
  | [] => []
  | e :: rest => shownEntry e :: shownEntries rest
termination_by structural v => v

def shownEntry : Value × Value → List Char
  | (k, v) => shownChars k ++ ": ".toList ++ shownChars v
termination_by structural v => v

end

mutual

/-- Whether a value has a text: none of its integers is too long to be written. -/
def isWritable : Value → Bool
  | .int n => (Text.decimal n.natAbs).length ≤ digitLimit
  | .list items => areWritable items
  | .tuple items => areWritable items
  | .dict entries => entriesWritable entries
  | .set items => areWritable items
  | _ => true
termination_by structural v => v

def areWritable : List Value → Bool
  | [] => true
  | v :: rest => isWritable v && areWritable rest
termination_by structural v => v

def entriesWritable : List (Value × Value) → Bool
  | [] => true
  | e :: rest => entryWritable e && entriesWritable rest
termination_by structural v => v

def entryWritable : Value × Value → Bool
  | (k, v) => isWritable k && isWritable v
termination_by structural v => v

end

theorem length_decimal_le_iff (n : Nat) {k : Nat} (positive : 0 < k) :
    (Text.decimal n).length ≤ k ↔ n < Nat.pow 10 k :=
  Nat.length_toDigits_le_iff (by decide) positive

theorem isWritable_int_iff (n : Int) :
    (Value.int n).isWritable = true ↔ n.natAbs < Nat.pow 10 digitLimit := by
  rw [← length_decimal_le_iff n.natAbs (show 0 < digitLimit by decide)]
  exact decide_eq_true_iff

/-- The text of a value as messages quote it, if it has one. -/
def shown? (v : Value) : Option String :=
  if v.isWritable then some (String.ofList v.shownChars) else none

/-- The text of a value where it stands alone: a text without its quotes. -/
def plain? : Value → Option String
  | .text s => some s
  | .date y m d => some (String.ofList (Moment.calendar y m d))
  | v => v.shown?

end Value

/-- A text as messages quote it. -/
def shownText (text : String) : String := String.ofList (Text.quoted text.toList)

/-- A list of texts as messages quote it. -/
def shownTexts (texts : List String) : String :=
  String.ofList (Value.shownChars (.list (texts.map .text)))

end OptionHost
