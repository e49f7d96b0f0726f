import OptionHost.Number.Binary64

/-!
# Values

The values that options, configuration documents and scripts hold. A mapping keeps its
entries in order of insertion; which keys count as one is decided in `Value.Equality`.
-/

namespace OptionHost

/-- A calendar date with a time of day and, where given, an offset from universal time. -/
structure Moment where
  year : Nat
  month : Nat
  day : Nat
  hour : Nat
  minute : Nat
  second : Nat
  microsecond : Nat
  /-- Minutes east of universal time. -/
  offset : Option Int
  deriving DecidableEq, Repr, Inhabited

inductive Value where
  | null
  | bool (b : Bool)
  | int (n : Int)
  | float (x : Binary64)
  | text (s : String)
  | bytes (octets : List UInt8)
  | list (items : List Value)
  | tuple (items : List Value)
  | dict (entries : List (Value × Value))
  | set (items : List Value)
  | date (year month day : Nat)
  | moment (m : Moment)
  /-- An object that only its type's name is known of. -/
  | object (typeName : String)
  deriving Inhabited

/-- The entries of a mapping in order of insertion. -/
abbrev Entries := List (Value × Value)

namespace Value

instance : Coe String Value := ⟨.text⟩

/-- The name of a value's type as messages write it. -/
def typeName : Value → String
  | .null => "NoneType"
  | .bool _ => "bool"
  | .int _ => "int"
  | .float _ => "float"
  | .text _ => "str"
  | .bytes _ => "bytes"
  | .list _ => "list"
  | .tuple _ => "tuple"
  | .dict _ => "dict"
  | .set _ => "set"
  | .date .. => "date"
  | .moment _ => "datetime"
  | .object name => name

/-- Whether a value counts as true where a truth value is asked for: zero and everything
empty do not. -/
def isTrue : Value → Bool
  | .null => false
  | .bool b => b
  | .int n => n != 0
  | .float x => !x.isZero
  | .text s => s != ""
  | .bytes b => !b.isEmpty
  | .list items => !items.isEmpty
  | .tuple items => !items.isEmpty
  | .dict entries => !entries.isEmpty
  | .set items => !items.isEmpty
  | .date .. => true
  | .moment _ => true
  | .object _ => true

def isDict : Value → Bool
  | .dict _ => true
  | _ => false

def isText : Value → Bool
  | .text _ => true
  | _ => false

def isBool : Value → Bool
  | .bool _ => true
  | _ => false

mutual

/-- The type of the first part of a value that cannot serve as a key. -/
def unkeyed? : Value → Option String
  | .list _ => some "list"
  | .dict _ => some "dict"
  | .set _ => some "set"
  | .tuple items => unkeyedItem? items
  | _ => none
termination_by structural v => v

def unkeyedItem? : List Value → Option String
  | [] => none
  | v :: rest => (unkeyed? v).or (unkeyedItem? rest)
termination_by structural v => v

end

end Value

end OptionHost
