import OptionHost.Fault
import OptionHost.Number.Binary64
import OptionHost.Text.Blank
import OptionHost.Text.Digit

/-!
# Numbers and truth values in text

Literals as people write them in settings. Integers and floating-point numbers may have digits
of any script, blanks around them and single underscores between digits; truth values are one
of eight words.
-/

namespace OptionHost.Literal

/-- A character with every digit turned into the ASCII digit of its value. -/
def asciiDigit (c : Char) : Char :=
  match Text.digitValue? c with
  | some d => Char.ofNat (48 + d)
  | none => c

def isDigit (c : Char) : Bool := 48 ≤ c.toNat && c.toNat ≤ 57

/-- A text without its underscores, if each of them stands between two digits of a class. -/
def withoutUnderscores? (isDigit : Char → Bool) : (afterDigit : Bool) → List Char →
    Option (List Char)
  | _, [] => some []
  | afterDigit, '_' :: rest =>
    match rest with
    | d :: _ =>
      if afterDigit && isDigit d then withoutUnderscores? isDigit false rest else none
    | [] => none
  | _, c :: rest => (withoutUnderscores? isDigit (isDigit c) rest).map (c :: ·)

def splitSign : List Char → Bool × List Char
  | '-' :: rest => (true, rest)
  | '+' :: rest => (false, rest)
  | s => (false, s)

def digits (s : List Char) : List Nat := s.map fun c => c.toNat - 48

/-- An exponent with its mark, or nothing at all. -/
def exponentPart? : List Char → Option Int
  | [] => some 0
  | mark :: rest =>
    if mark == 'e' || mark == 'E' then
      let (negative, ds) := splitSign rest
      if ds.isEmpty || !ds.all isDigit then none
      else
        let n : Int := Text.digitsValue 10 (digits ds)
        some (if negative then -n else n)
    else none

/-- A floating-point number in ASCII: digits around an optional point, an optional exponent,
or one of the words for what is not finite. -/
def decimal? (s : List Char) : Option Binary64 :=
  let (negative, body) := splitSign s
  match String.ofList (Text.lowerAscii body) with
  | "inf" | "infinity" => some (.infinite negative)
  | "nan" => some .nan
  | _ =>
    let whole := body.takeWhile isDigit
    let rest := body.dropWhile isDigit
    let (fraction, rest) :=
      match rest with
      | '.' :: rest => (rest.takeWhile isDigit, rest.dropWhile isDigit)
      | rest => ([], rest)
    if whole.isEmpty && fraction.isEmpty then none
    else
      (exponentPart? rest).map fun e =>
        .ofScientific negative (Text.digitsValue 10 (digits (whole ++ fraction)))
          (e - fraction.length)

/-- The letter that may mark a numeral as one of a base, behind a zero. -/
def baseMark? : (base : Nat) → Option Char
  | 16 => some 'x'
  | 8 => some 'o'
  | 2 => some 'b'
  | _ => none

/-- A numeral without the mark of its base, and whether it had one. -/
def splitMark (base : Nat) : List Char → Bool × List Char
  | '0' :: mark :: rest =>
    if baseMark? base == some mark.toLower then (true, rest) else (false, '0' :: mark :: rest)
  | s => (false, s)

/-- An integer in a base up to sixteen, signed or not. An underscore may also stand behind the
mark of the base, and only decimal numerals are limited in length. -/
def readIntegerIn (base : Nat) (text : String) : Except Fault Int :=
  let isDigit (c : Char) : Bool := (Text.hexValue? c).any (· < base)
  let refused : Fault := .wrongValue (.notInteger base text)
  let s := Text.trim Text.isWhiteSpace text.toList |>.map asciiDigit
  let (negative, body) := splitSign s
  let (marked, body) := splitMark base body
  let numeral := body.takeWhile fun c => isDigit c || c == '_'
  match withoutUnderscores? isDigit marked numeral with
  | none => .error refused
  | some ds =>
    if base == 10 && digitLimit < ds.length then .error (.wrongValue (.tooManyDigits ds.length))
    else if ds.isEmpty || numeral.length < body.length then .error refused
    else
      let n : Int := Text.digitsValue base (ds.filterMap Text.hexValue?)
      .ok (if negative then -n else n)

def readInteger (text : String) : Except Fault Int := readIntegerIn 10 text

def readFloat (text : String) : Except Fault Binary64 :=
  let s := Text.trim Text.isWhiteSpace text.toList |>.map asciiDigit
  match (withoutUnderscores? isDigit false s).bind decimal? with
  | some x => .ok x
  | none => .error (.wrongValue (.notFloat text))

def trueWords : List String := ["true", "1", "yes", "on"]

def falseWords : List String := ["false", "0", "no", "off"]

/-- A truth value, in any case and with blanks around it. Case is that of ASCII: no other
letter has a letter of the words as its lower case. -/
def readBool (text : String) : Except Fault Bool :=
  let word := String.ofList (Text.lowerAscii (Text.trim Text.isBlank text.toList))
  if trueWords.contains word then .ok true
  else if falseWords.contains word then .ok false
  else .error (.wrongValue (.notBoolean text))

end OptionHost.Literal
