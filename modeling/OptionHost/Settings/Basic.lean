import OptionHost.Fault
import OptionHost.Number.Literal
import OptionHost.Text.Utf8
import OptionHost.Value.Entries

/-!
# Reading documents against a schema

A reader turns a value into something typed or lists what is wrong with it. All parts of a
document are read, so that every issue is reported: those of the fields in the order of their
declaration, then the keys that the schema does not know, in the order of the document. Readers
are lenient where a value can only mean one thing.
-/

namespace OptionHost

/-- A typed value, or the issues that stand in the way. -/
abbrev Checked (α : Type) := Except (List Issue) α

namespace Checked

variable {α β : Type}

def issues : Checked α → List Issue
  | .ok _ => []
  | .error issues => issues

def refuse (kind : IssueKind) : Checked α := .error [⟨kind, []⟩]

/-- The issues of a part, seen from the whole. -/
def under (key : Value) (c : Checked α) : Checked α := c.mapError (·.map (Issue.under key))

end Checked

/-- A part of a document as reader of a value. -/
abbrev Reader (α : Type) := Value → Checked α

namespace Reader

/-- Whether an integer has 64 bits. -/
def isMachineInt (n : Int) : Bool :=
  let bound := Int.ofNat (Nat.pow 2 63)
  n < bound && -bound ≤ n

/-- The words for true and false, in lower case. -/
def trueWords : List String := ["1", "t", "y", "yes", "on", "true"]

def falseWords : List String := ["0", "f", "n", "no", "off", "false"]

def boolWord (s : List Char) : Checked Bool :=
  let word := String.ofList (Text.lowerAscii s)
  if trueWords.contains word then .ok true
  else if falseWords.contains word then .ok false
  else .refuse .unreadableBool

/-- Zero and one stand for truth values; other integers might, and larger numbers cannot. -/
def boolInt (n : Int) : Checked Bool :=
  if n == 0 then .ok false
  else if n == 1 then .ok true
  else if isMachineInt n then .refuse .unreadableBool
  else .refuse .notBool

def bool : Reader Bool
  | .bool b => .ok b
  | .text s => boolWord s.toList
  | .bytes b =>
    match Text.decodeUtf8? b with
    | some s => boolWord s
    | none => .refuse .unreadableBool
  | .int n => boolInt n
  | .float x =>
    match x.toInt? with
    | some n => boolInt n
    | none => .refuse .notBool
  | _ => .refuse .notBool

def exactBool : Reader Bool
  | .bool b => .ok b
  | _ => .refuse .notBool

def text : Reader String
  | .text s => .ok s
  | .bytes b =>
    match Text.decodeUtf8? b with
    | some s => .ok (String.ofList s)
    | none => .refuse .undecodableText
  | _ => .refuse .notText

def exactText : Reader String
  | .text s => .ok s
  | _ => .refuse .notText

/-- A text without its underscores, if there are any and all of them are single and inside. -/
def strippedUnderscores? (s : List Char) : Option (List Char) :=
  let rec doubled : List Char → Bool
    | '_' :: '_' :: _ => true
    | _ :: rest => doubled rest
    | [] => false
  if !s.contains '_' || s.head? == some '_' || s.getLast? == some '_' || doubled s then none
  else some (s.filter (· != '_'))

def floatWord (s : List Char) : Checked Binary64 :=
  let plain := Literal.decimal? (Text.trim Text.isWhiteSpace s)
  match plain.or ((strippedUnderscores? s).bind Literal.decimal?) with
  | some x => .ok x
  | none => .refuse .unreadableFloat

/-- An integer as the nearest number, if one is in range. -/
def floatInt (n : Int) : Checked Binary64 :=
  let x := Binary64.ofInt n
  if x.isFinite then .ok x else .refuse .notFloat

def float : Reader Binary64
  | .float x => .ok x
  | .int n => floatInt n
  | .bool b => floatInt (if b then 1 else 0)
  | .text s => floatWord s.toList
  | .bytes b =>
    match Text.decodeUtf8? b with
    | some s => floatWord s
    | none => .refuse .unreadableFloat
  | _ => .refuse .notFloat

/-- A number above zero. -/
def positiveFloat : Reader Binary64 := fun v => do
  let x ← float v
  if x.compareRatio? 0 1 == some .gt then return x else Checked.refuse .notPositive

def oneOf (texts : List String) : Reader String
  | .text s => if texts.contains s then .ok s else .refuse (.notAmong texts)
  | _ => .refuse (.notAmong texts)

/-- A key as the path to an issue shows it: a text, an integer, or the text of anything else, with
words for what has none. -/
def locationKey : Value → Value
  | .text s => .text s
  | v =>
    let shown := Value.text (v.shown?.getD s!"<unprintable {v.typeName} object>")
    match v.integer? with
    | some n => if isMachineInt n then .int n else shown
    | none => shown

/-- One entry of a mapping from texts to texts. -/
def textEntry (key value : Value) : Checked (String × String) :=
  let place := locationKey key
  let k := ((text key).under (.text "[key]")).under place
  let v := (text value).under place
  match k, v with
  | .ok k, .ok v => .ok (k, v)
  | k, v => .error (k.issues ++ v.issues)

/-- A mapping from texts to texts; of keys that are read as one text the last one counts. -/
def textDict : Reader (List (String × String))
  | .dict entries =>
    let read := entries.map fun e => textEntry e.1 e.2
    match read.flatMap Checked.issues with
    | [] =>
      let pairs := read.filterMap fun r =>
        match r with
        | .ok e => some e
        | .error _ => none
      .ok (pairs.foldl (fun sofar e =>
        if sofar.any (·.1 == e.1) then sofar.map fun f => if f.1 == e.1 then e else f
        else sofar ++ [e]) [])
    | issues => .error issues
  | _ => .refuse .notDict

/-- A field of a mapping, with the value that it has where the mapping does not give one. -/
def field {α : Type} (entries : Entries) (name : String) (otherwise : α) (read : Reader α) :
    Checked α :=
  match entries.named? name with
  | none => .ok otherwise
  | some v => (read v).under (.text name)

/-- The keys of a mapping that are none of its fields. -/
def unknownKeys (known : List String) (entries : Entries) : List Issue :=
  entries.filterMap fun e =>
    match e.1 with
    | .text s => if known.contains s then none else some ⟨.unknownKey, [.text s]⟩
    | k => some ⟨.keyNotText, [locationKey k]⟩

end Reader

end OptionHost
