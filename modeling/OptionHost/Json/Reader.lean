import OptionHost.Fault
import OptionHost.Value.Entries

/-!
# Reading JSON

A reader of JSON text that also takes the words for nan and the infinities. What it cannot
read is reported with the place where reading stopped. Recursion is bounded by the length of
the text, since every value takes at least one character.
-/

namespace OptionHost.Json

/-- Why reading stopped, and what was left to read. -/
inductive Trouble where
  | unexpected (problem : String) (rest : List Char)
  | tooManyDigits (count : Nat)
  deriving Repr

def isBlank (c : Char) : Bool := c == ' ' || c == '\t' || c == '\n' || c == '\r'

def skipBlanks (s : List Char) : List Char := s.dropWhile isBlank

def expected {α : Type} (what : String) (rest : List Char) : Except Trouble α :=
  .error (.unexpected ("Expecting " ++ what) rest)

/-- A UTF-16 unit of four hexadecimal digits; a character has to follow them. -/
def unit? (s : List Char) : Option (Nat × List Char) :=
  match s with
  | a :: b :: c :: d :: rest => do
    let digits ← [a, b, c, d].mapM Text.hexValue?
    return (Text.digitsValue 16 digits, rest)
  | _ => none

/-- The character of a code point; a half of a surrogate pair has none and is replaced. -/
def codePoint (n : Nat) : Char :=
  if n.isValidChar then Char.ofNat n else '\ufffd'

/-- An escape behind `\u`, a surrogate pair being read as one character. What is refused is
reported at the `u`. -/
def unitEscape (afterMark : List Char) : Except Trouble (Char × List Char) :=
  let refused (rest : List Char) : Except Trouble (Char × List Char) :=
    .error (.unexpected "Invalid \\uXXXX escape" rest)
  if afterMark.length < 5 then refused ('u' :: afterMark)
  else
    match unit? afterMark with
    | none => refused ('u' :: afterMark)
    | some (n, rest) =>
      if 0xD800 ≤ n && n ≤ 0xDBFF then
        match rest with
        | '\\' :: 'u' :: more =>
          if more.length < 5 then .ok (codePoint n, rest)
          else
            match unit? more with
            | none => refused ('u' :: more)
            | some (m, rest') =>
              if 0xDC00 ≤ m && m ≤ 0xDFFF then
                .ok (codePoint (0x10000 + (n - 0xD800) * 0x400 + (m - 0xDC00)), rest')
              else .ok (codePoint n, rest)
        | _ => .ok (codePoint n, rest)
      else .ok (codePoint n, rest)

/-- The character that a letter behind a backslash stands for. -/
def escaped? : Char → Option Char
  | '\x22' => some '\x22'
  | '\\' => some '\\'
  | '/' => some '/'
  | 'b' => some '\x08'
  | 'f' => some '\x0c'
  | 'n' => some '\n'
  | 'r' => some '\r'
  | 't' => some '\t'
  | _ => none

/-- The rest of a string behind its opening quote; `opening` is the text from that quote on. -/
def stringTail (opening : List Char) : (fuel : Nat) → List Char → List Char →
    Except Trouble (String × List Char)
  | 0, _, _ => .error (.unexpected "Unterminated string starting at" opening)
  | _ + 1, _, [] => .error (.unexpected "Unterminated string starting at" opening)
  | fuel + 1, reversed, c :: rest =>
    if c == '\x22' then .ok (String.ofList reversed.reverse, rest)
    else if c == '\\' then
      match rest with
      | [] => .error (.unexpected "Unterminated string starting at" opening)
      | 'u' :: more => do
        let (x, rest) ← unitEscape more
        stringTail opening fuel (x :: reversed) rest
      | e :: more =>
        match escaped? e with
        | some x => stringTail opening fuel (x :: reversed) more
        | none => .error (.unexpected "Invalid \\escape" (c :: rest))
    else if c.toNat < 32 then .error (.unexpected "Invalid control character at" (c :: rest))
    else stringTail opening fuel (c :: reversed) rest

def string (opening : List Char) : Except Trouble (String × List Char) :=
  stringTail opening (opening.length + 1) [] (opening.drop 1)

def digitsOf (s : List Char) : List Nat := s.map fun c => c.toNat - 48

/-- The fraction of a number, if digits follow a point. -/
def fraction (s : List Char) : List Char × List Char :=
  match s with
  | '.' :: rest =>
    let digits := rest.takeWhile Char.isDigit
    if digits.isEmpty then ([], s) else (digits, rest.dropWhile Char.isDigit)
  | _ => ([], s)

/-- The exponent of a number, if digits follow its mark. -/
def exponent? (s : List Char) : Option (Int × List Char) :=
  let signed (negative : Bool) (rest : List Char) : Option (Int × List Char) :=
    let digits := rest.takeWhile Char.isDigit
    if digits.isEmpty then none
    else
      let n := Text.digitsValue 10 (digitsOf digits)
      some (if negative then -(n : Int) else n, rest.dropWhile Char.isDigit)
  match s with
  | mark :: rest =>
    if mark == 'e' || mark == 'E' then
      match rest with
      | '-' :: rest => signed true rest
      | '+' :: rest => signed false rest
      | rest => signed false rest
    else none
  | [] => none

/-- A number; `start` is the text from its sign on. -/
def number (start : List Char) : Except Trouble (Value × List Char) :=
  let (negative, s) :=
    match start with
    | '-' :: rest => (true, rest)
    | _ => (false, start)
  let digits :=
    match s with
    | '0' :: _ => ['0']
    | s => s.takeWhile Char.isDigit
  if digits.isEmpty then expected "value" start
  else
    let rest := s.drop digits.length
    let (decimals, rest') := fraction rest
    match exponent? rest' with
    | none =>
      if decimals.isEmpty then
        if digitLimit < digits.length then .error (.tooManyDigits digits.length)
        else
          let n := Text.digitsValue 10 (digitsOf digits)
          .ok (.int (if negative then -(n : Int) else n), rest')
      else
        let n := Text.digitsValue 10 (digitsOf (digits ++ decimals))
        .ok (.float (.ofScientific negative n (-(decimals.length : Int))), rest')
    | some (e, rest'') =>
      let n := Text.digitsValue 10 (digitsOf (digits ++ decimals))
      .ok (.float (.ofScientific negative n (e - decimals.length)), rest'')

def words : List (String × Value) :=
  [("null", .null), ("true", .bool true), ("false", .bool false), ("NaN", .float .nan),
    ("Infinity", .float (.infinite false)), ("-Infinity", .float (.infinite true))]

def scalar (s : List Char) : Except Trouble (Value × List Char) :=
  match words.find? fun w => w.1.toList.isPrefixOf s with
  | some (word, v) => .ok (v, s.drop word.length)
  | none => number s

mutual

def value : (fuel : Nat) → List Char → Except Trouble (Value × List Char)
  | 0, s => expected "value" s
  | _ + 1, [] => expected "value" []
  | fuel + 1, c :: rest =>
    if c == '\x22' then do
      let (text, rest) ← string (c :: rest)
      return (.text text, rest)
    else if c == '\x7b' then
      let rest := skipBlanks rest
      match rest with
      | '\x7d' :: rest => .ok (.dict [], rest)
      | _ => entries fuel [] rest
    else if c == '[' then
      let rest := skipBlanks rest
      match rest with
      | ']' :: rest => .ok (.list [], rest)
      | _ => items fuel [] rest
    else scalar (c :: rest)

/-- The entries of an object up to its closing brace. -/
def entries : (fuel : Nat) → Entries → List Char → Except Trouble (Value × List Char)
  | 0, _, s => expected "property name enclosed in double quotes" s
  | fuel + 1, sofar, s =>
    match s with
    | '\x22' :: _ => do
      let (key, rest) ← string s
      match skipBlanks rest with
      | ':' :: rest => do
        let (v, rest) ← value fuel (skipBlanks rest)
        let sofar := sofar.put (.text key) v
        match skipBlanks rest with
        | '\x7d' :: rest => return (.dict sofar, rest)
        | ',' :: rest => entries fuel sofar (skipBlanks rest)
        | rest => expected "',' delimiter" rest
      | rest => expected "':' delimiter" rest
    | _ => expected "property name enclosed in double quotes" s

/-- The items of an array up to its closing bracket. -/
def items : (fuel : Nat) → List Value → List Char → Except Trouble (Value × List Char)
  | 0, _, s => expected "value" s
  | fuel + 1, reversed, s => do
    let (v, rest) ← value fuel s
    match skipBlanks rest with
    | ']' :: rest => return (.list (v :: reversed).reverse, rest)
    | ',' :: rest => items fuel (v :: reversed) (skipBlanks rest)
    | rest => expected "',' delimiter" rest

end

/-- The line, column and position of the place where a rest of a text begins. -/
def placeOf (text rest : List Char) : Nat × Nat × Nat :=
  let read := text.take (text.length - rest.length)
  let lastLine := read.reverse.takeWhile (· != '\n')
  (read.count '\n' + 1, lastLine.length + 1, read.length)

def Trouble.fault (text : List Char) : Trouble → Fault
  | .unexpected problem rest =>
    let (line, column, position) := placeOf text rest
    .badJson problem line column position
  | .tooManyDigits count => .wrongValue (.tooManyDigits count)

def read (text : List Char) : Except Fault Value :=
  if text.head? == some '\ufeff' then
    .error (.badJson "Unexpected UTF-8 BOM (decode using utf-8-sig)" 1 1 0)
  else
    match value (text.length + 1) (skipBlanks text) with
    | .error trouble => .error (trouble.fault text)
    | .ok (v, rest) =>
      match skipBlanks rest with
      | [] => .ok v
      | rest => .error ((Trouble.unexpected "Extra data" rest).fault text)

end OptionHost.Json
