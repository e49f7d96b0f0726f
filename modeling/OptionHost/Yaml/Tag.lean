import OptionHost.Yaml.Timestamp

/-!
# Tags

The tag of a node says how its content is to be read. Nodes without a tag of their own get one
from their form: a plain scalar by its text, every other scalar the tag of text.
-/

namespace OptionHost.Yaml

inductive Tag where
  | null
  | bool
  | int
  | float
  | binary
  | timestamp
  | str
  | seq
  | map
  | set
  | omap
  | pairs
  /-- Stands for the key under which other mappings are merged in. -/
  | merge
  /-- Stands for the key of a mapping's default value. -/
  | value
  | unknown
  deriving DecidableEq, Repr, Inhabited

namespace Tag

/-- What the tags of the core schema begin with. -/
def coreStart : String := "tag:yaml.org,2002:"

def ofName : String → Tag
  | "null" => .null
  | "bool" => .bool
  | "int" => .int
  | "float" => .float
  | "binary" => .binary
  | "timestamp" => .timestamp
  | "str" => .str
  | "seq" => .seq
  | "map" => .map
  | "set" => .set
  | "omap" => .omap
  | "pairs" => .pairs
  | "merge" => .merge
  | "value" => .value
  | _ => .unknown

def ofUri (uri : String) : Tag :=
  let start := coreStart.toList
  if start.isPrefixOf uri.toList then ofName (String.ofList (uri.toList.drop start.length))
  else .unknown

def isCollection : Tag → Bool
  | .seq | .map | .set | .omap | .pairs => true
  | _ => false

end Tag

/-! The forms of plain scalars. -/
namespace Plain

def isBinary (c : Char) : Bool := c == '0' || c == '1'

def isOctal (c : Char) : Bool := '0' ≤ c && c ≤ '7'

def isHex (c : Char) : Bool := (Text.hexValue? c).isSome

/-- Digits of a class and underscores, at least one of them. -/
def isNumeral (p : Char → Bool) (s : List Char) : Bool :=
  !s.isEmpty && s.all fun c => p c || c == '_'

def isDecimal : List Char → Bool
  | [] => false
  | c :: rest => Literal.isDigit c && rest.all fun c => Literal.isDigit c || c == '_'

/-- One or two digits of a number below sixty. -/
def isSixtieth : List Char → Bool
  | [d] => Literal.isDigit d
  | [t, d] => '0' ≤ t && t ≤ '5' && Literal.isDigit d
  | _ => false

/-- A number in base sixty, with colons between its places. -/
def isSexagesimal (s : List Char) : Bool :=
  match s.splitOn ':' with
  | first :: second :: rest => isDecimal first && (second :: rest).all isSixtieth
  | _ => false

def isInt (s : List Char) : Bool :=
  let s := (Literal.splitSign s).2
  match s with
  | ['0'] => true
  | '0' :: rest =>
    match rest with
    | 'b' :: rest => isNumeral isBinary rest
    | 'x' :: rest => isNumeral isHex rest
    | rest => isNumeral isOctal rest
  | s => isDecimal s || isSexagesimal s

def isExponent : List Char → Bool
  | [] => true
  | mark :: sign :: ds =>
    (mark == 'e' || mark == 'E') && (sign == '+' || sign == '-') && !ds.isEmpty &&
      ds.all Literal.isDigit
  | _ => false

def isFloat (s : List Char) : Bool :=
  let body := (Literal.splitSign s).2
  let signed := body.length < s.length
  let whole := body.takeWhile (· != '.')
  match body.dropWhile (· != '.') with
  | '.' :: rest =>
    let behind := rest.dropWhile fun c => Literal.isDigit c || c == '_'
    if whole.isEmpty then
      ["inf", "Inf", "INF"].contains (String.ofList rest) ||
        !signed && (["nan", "NaN", "NAN"].contains (String.ofList rest) ||
          rest.head?.any Literal.isDigit && isExponent behind)
    else isDecimal whole && isExponent behind || isSexagesimal whole && behind.isEmpty
  | _ => false

def boolWords : List String :=
  ["yes", "Yes", "YES", "no", "No", "NO", "true", "True", "TRUE", "false", "False", "FALSE",
    "on", "On", "ON", "off", "Off", "OFF"]

def nullWords : List String := ["~", "null", "Null", "NULL"]

/-- A text without a line feed at its end. -/
def withoutLastBreak (s : List Char) : List Char :=
  if s.getLast? == some '\n' then s.dropLast else s

/-- The tag of a plain scalar. One line feed at the end of its text does not count. -/
def tagOf (text : List Char) : Tag :=
  if text.isEmpty then .null
  else
    let s := withoutLastBreak text
    let word := String.ofList s
    if boolWords.contains word then .bool
    else if isFloat s then .float
    else if isInt s then .int
    else if word == "<<" then .merge
    else if nullWords.contains word then .null
    else if Stamp.isWritten s then .timestamp
    else if word == "=" then .value
    else if ["!", "&", "*"].contains word then .unknown
    else .str

end Plain

end OptionHost.Yaml
