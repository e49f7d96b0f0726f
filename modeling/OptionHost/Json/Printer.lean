import OptionHost.Value.Order

/-!
# JSON text

Writing values as JSON: lists and tuples as arrays, mappings as objects. Keys that are numbers,
truth values or null are written as the text that stands for them.
-/

namespace OptionHost.Json

/-- The choices that a writer of JSON leaves open. -/
structure Style where
  itemSeparator : List Char
  keySeparator : List Char
  /-- The indent of one level; without one everything stands on one line. -/
  indent : Option (List Char)
  sortKeys : Bool
  asciiOnly : Bool
  /-- Whether nan and the infinities are written; they are no JSON numbers. -/
  allowNan : Bool
  /-- Whether keys that no text stands for are left out; otherwise they are a fault. -/
  skipKeys : Bool

/-- One line, blanks behind separators, ASCII only. -/
def Style.plain : Style :=
  ⟨[',', ' '], [':', ' '], none, false, true, true, false⟩

def Style.compact : Style := { Style.plain with itemSeparator := [','], keySeparator := [':'] }

def Style.indented (width : Nat) : Style :=
  { Style.plain with itemSeparator := [','], indent := some (List.replicate width ' ') }

def escapedUnit (n : Nat) : List Char := '\\' :: 'u' :: Text.hexDigits 4 n

def escapeChar (asciiOnly : Bool) (c : Char) : List Char :=
  if c == '\x22' then ['\\', c]
  else if c == '\\' then ['\\', c]
  else if c == '\n' then ['\\', 'n']
  else if c == '\r' then ['\\', 'r']
  else if c == '\t' then ['\\', 't']
  else if c == '\x08' then ['\\', 'b']
  else if c == '\x0c' then ['\\', 'f']
  else if c.toNat < 32 then escapedUnit c.toNat
  else if asciiOnly && 126 < c.toNat then
    if c.toNat < 0x10000 then escapedUnit c.toNat
    else
      let n := c.toNat - 0x10000
      escapedUnit (0xD800 + n / 0x400) ++ escapedUnit (0xDC00 + n % 0x400)
  else [c]

def quoted (asciiOnly : Bool) (s : List Char) : List Char :=
  '\x22' :: s.flatMap (escapeChar asciiOnly) ++ ['\x22']

/-- A floating-point number, or the word for what is not finite. -/
def Style.number (style : Style) (x : Binary64) : Except Fault (List Char) :=
  if x.isFinite then .ok x.shown
  else if style.allowNan then
    .ok (match x with
      | .infinite negative => (if negative then "-Infinity" else "Infinity").toList
      | _ => "NaN".toList)
  else
    let suffix := if style.indent.isSome then ": " ++ String.ofList x.shown else ""
    .error (.wrongValue (.notCompliant suffix))

/-- An integer of not too many digits. -/
def integer (n : Int) : Except Fault (List Char) :=
  if (Value.int n).isWritable then .ok (Text.decimalInt n) else .error .unwritable

/-- The text that stands for a key; nothing for a key that is left out. -/
def Style.key (style : Style) : Value → Except Fault (Option (List Char))
  | .text s => .ok (some s.toList)
  | .float x => (style.number x).map some
  | .bool b => .ok (some (if b then "true" else "false").toList)
  | .null => .ok (some "null".toList)
  | .int n => (integer n).map some
  | v => if style.skipKeys then .ok none else .error (.wrongType (.notEncodableKey v.typeName))

/-- A line break with the indent of a level, in a style that breaks lines. -/
def Style.lineBreak (style : Style) (level : Nat) : List Char :=
  match style.indent with
  | none => []
  | some indent => '\n' :: (List.replicate level indent).flatten

def Style.enclosed (style : Style) (level : Nat) (opening closing : Char)
    (items : List (List Char)) : List Char :=
  opening :: style.lineBreak (level + 1) ++
    Value.joined (style.itemSeparator ++ style.lineBreak (level + 1)) items ++
    style.lineBreak level ++ [closing]

/-- One entry of an object; nothing for an entry that is left out. -/
def Style.entry (style : Style) (key : Value) (value : Except Fault (List Char)) :
    Except Fault (Option (List Char)) := do
  match ← style.key key with
  | none => return none
  | some k =>
    let v ← value
    return some (quoted style.asciiOnly k ++ style.keySeparator ++ v)

def Style.object (style : Style) (level : Nat)
    (entries : List (Value × Except Fault (List Char))) : Except Fault (List Char) := do
  if entries.isEmpty then return ['\x7b', '\x7d']
  let ordered ←
    if style.sortKeys then Sorting.sort (fun a b => Value.precedes a.1 b.1) entries
    else pure entries
  let items ← ordered.mapM fun e => style.entry e.1 e.2
  return style.enclosed level '\x7b' '\x7d' (items.filterMap id)

mutual

def render (style : Style) (level : Nat) : Value → Except Fault (List Char)
  | .null => .ok "null".toList
  | .bool b => .ok (if b then "true" else "false").toList
  | .int n => integer n
  | .float x => style.number x
  | .text s => .ok (quoted style.asciiOnly s.toList)
  | .list items => do
    if items.isEmpty then return ['[', ']']
    return style.enclosed level '[' ']' (← renderItems style (level + 1) items)
  | .tuple items => do
    if items.isEmpty then return ['[', ']']
    return style.enclosed level '[' ']' (← renderItems style (level + 1) items)
  | .dict entries => style.object level (renderEntries style (level + 1) entries)
  | v => .error (.wrongType (.notEncodable v.typeName))
termination_by structural v => v

def renderItems (style : Style) (level : Nat) : List Value → Except Fault (List (List Char))
  | [] => .ok []
  | v :: rest => do
    let s ← render style level v
    return s :: (← renderItems style level rest)
termination_by structural v => v

def renderEntries (style : Style) (level : Nat) :
    List (Value × Value) → List (Value × Except Fault (List Char))
  | [] => []
  | e :: rest => renderEntry style level e :: renderEntries style level rest
termination_by structural v => v

def renderEntry (style : Style) (level : Nat) :
    Value × Value → Value × Except Fault (List Char)
  | (k, v) => (k, render style level v)
termination_by structural v => v

end

def write (style : Style) (v : Value) : Except Fault String :=
  (render style 0 v).map String.ofList

end OptionHost.Json
