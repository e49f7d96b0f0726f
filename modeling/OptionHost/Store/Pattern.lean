import OptionHost.Fault
import OptionHost.Value.Entries

/-!
# Break-at patterns

A pattern matches one character of a break-at class. Its source is a bracketed character class
in which every special character is escaped. What a source matches is decided by reading it
back: negation, ranges, escapes and an early closing bracket have their usual meaning.
-/

namespace OptionHost

inductive ClassItem where
  | single (c : Char)
  | range (low high : Char)
  deriving DecidableEq, Repr

def ClassItem.contains (c : Char) : ClassItem → Bool
  | .single d => c == d
  | .range low high => low ≤ c && c ≤ high

structure CharacterClass where
  negated : Bool
  items : List ClassItem
  deriving DecidableEq, Repr

namespace CharacterClass

def contains (cls : CharacterClass) (c : Char) : Bool :=
  cls.items.any (ClassItem.contains c) != cls.negated

/-- A character of a class with its escape, if it has one. Escaped letters and digits stand
for more than themselves and are refused. -/
def character? : List Char → Option (Char × List Char)
  | '\\' :: c :: rest => if c.isAlphanum then none else some (c, rest)
  | '\\' :: [] => none
  | c :: rest => some (c, rest)
  | [] => none

/-- The members up to the closing bracket. A bracket that comes first closes nothing, and a
hyphen makes a range unless the bracket follows it. -/
def items? : (fuel : Nat) → (sofar : List ClassItem) → List Char →
    Option (List ClassItem × List Char)
  | 0, _, _ => none
  | fuel + 1, sofar, s =>
    match s with
    | [] => none
    | c :: rest =>
      if c == ']' && !sofar.isEmpty then some (sofar.reverse, rest)
      else
        match character? (c :: rest) with
        | none => none
        | some (low, '-' :: ']' :: rest) =>
          some ((.single '-' :: .single low :: sofar).reverse, rest)
        | some (low, '-' :: rest) =>
          match character? rest with
          | none => none
          | some (high, rest) =>
            if low ≤ high then items? fuel (.range low high :: sofar) rest else none
        | some (low, rest) => items? fuel (.single low :: sofar) rest

/-- The class that a text between brackets writes, if it is well formed. -/
def read? (source : List Char) : Option CharacterClass :=
  match source with
  | '[' :: rest =>
    let (negated, body) :=
      match rest with
      | '^' :: rest => (true, rest)
      | rest => (false, rest)
    match items? (body.length + 1) [] body with
    | some (items, []) => some ⟨negated, items⟩
    | _ => none
  | _ => none

end CharacterClass

structure Pattern where
  source : List Char
  deriving DecidableEq, Repr, Inhabited

namespace Pattern

/-- The characters that have a meaning of their own in patterns. -/
def special : List Char := "()[]{}?*+-|^$\\.&~# \t\n\r\x0b\x0c".toList

def escape (c : Char) : List Char := if special.contains c then ['\\', c] else [c]

def ofChars (chars : List Char) : Pattern := ⟨'[' :: chars.flatMap escape ++ [']']⟩

def accepts (p : Pattern) (c : Char) : Bool :=
  match CharacterClass.read? p.source with
  | some cls => cls.contains c
  | none => false

/-- All matches in a text: each position, counted in characters, with the character there. -/
def findAll (p : Pattern) (text : List Char) : List (Nat × Char) :=
  match CharacterClass.read? p.source with
  | some cls => (text.zipIdx.filter fun m => cls.contains m.1).map fun m => (m.2, m.1)
  | none => []

/-- The characters of one part of a class that is not itself a text. -/
def partChars : Value → Except Fault (Option (List Char))
  | .text s => .ok (some s.toList)
  | .bytes _ => .ok none
  | v =>
    .error (.wrongType (.stated
      s!"decoding to str: need a bytes-like object, {v.typeName} found"))

/-- The pattern for a class given part by part; octets cannot stand among texts. -/
def ofParts (parts : List Value) : Except Fault Pattern := do
  let texts ← parts.mapM partChars
  match texts.findIdx? Option.isNone with
  | some i =>
    .error (.wrongType (.stated s!"sequence item {i}: expected str instance, bytes found"))
  | none =>
    let chars := (texts.filterMap id).flatten
    if chars.isEmpty then
      .error (.foreign "error" "unterminated character set at position 0")
    else .ok (ofChars chars)

/-- The pattern for what a class table holds under a name. -/
def ofClass : Value → Except Fault Pattern
  | .text s => .ok (ofChars s.toList)
  | .list parts => ofParts parts
  | .tuple parts => ofParts parts
  | .set parts => ofParts parts
  | .dict entries => ofParts (Entries.keys entries)
  | .bytes octets => ofParts (octets.map fun b => .int b.toNat)
  | v => .error (.wrongType (.notIterable v.typeName))

end Pattern

end OptionHost
