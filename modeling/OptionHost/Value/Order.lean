import OptionHost.Fault
import OptionHost.Value.Entries

/-!
# Order of values

The order in which lists of values are sorted. Values of unrelated types have no order, and
to compare them is a fault; the fault names the two values that the sort compared first.
-/

namespace OptionHost

namespace Value

/-- Lexicographic order of octets. -/
def octetsBelow : List UInt8 → List UInt8 → Bool
  | _, [] => false
  | [], _ :: _ => true
  | a :: as, b :: bs => if a == b then octetsBelow as bs else a < b

mutual

def precedes : Value → Value → Except Fault Bool
  | .text s, w => match w with
    | .text t => .ok (s < t)
    | w => .error (.wrongType (.notOrdered "str" w.typeName))
  | .bytes a, w => match w with
    | .bytes b => .ok (octetsBelow a b)
    | w => .error (.wrongType (.notOrdered "bytes" w.typeName))
  | .bool b, w => match w with
    | .float y => .ok ((Binary64.ofInt (if b then 1 else 0)).compare? y == some .lt)
    | w => match w.integer? with
      | some n => .ok ((if b then 1 else 0) < n)
      | none => .error (.wrongType (.notOrdered "bool" w.typeName))
  | .int m, w => match w with
    | .float y => .ok (y.compareRatio? m 1 == some .gt)
    | w => match w.integer? with
      | some n => .ok (m < n)
      | none => .error (.wrongType (.notOrdered "int" w.typeName))
  | .float x, w => match w with
    | .float y => .ok (x.compare? y == some .lt)
    | w => match w.integer? with
      | some n => .ok (x.compareRatio? n 1 == some .lt)
      | none => .error (.wrongType (.notOrdered "float" w.typeName))
  | .list items, w => match w with
    | .list items' => itemsPrecede items items'
    | w => .error (.wrongType (.notOrdered "list" w.typeName))
  | .tuple items, w => match w with
    | .tuple items' => itemsPrecede items items'
    | w => .error (.wrongType (.notOrdered "tuple" w.typeName))
  | .set items, w => match w with
    | .set items' => .ok (items.length < items'.length && itemsWithin items items')
    | w => .error (.wrongType (.notOrdered "set" w.typeName))
  | .date y m d, w => match w with
    | .date y' m' d' => .ok (Moment.dayNumber y m d < Moment.dayNumber y' m' d')
    | w => .error (.wrongType (.notOrdered "datetime.date" w.typeName))
  | .moment m, w => match w with
    | .moment m' => match m.offset, m'.offset with
      | none, none => .ok (m.microseconds < m'.microseconds)
      | some x, some y =>
        .ok (m.microseconds - x * 60000000 < m'.microseconds - y * 60000000)
      | _, _ =>
        .error (.wrongType (.stated "can't compare offset-naive and offset-aware datetimes"))
    | w => .error (.wrongType (.notOrdered "datetime.datetime" w.typeName))
  | v, w => .error (.wrongType (.notOrdered v.typeName w.typeName))
termination_by structural v => v

/-- The first pair of items that differ decides, or else the length. -/
def itemsPrecede : List Value → List Value → Except Fault Bool
  | [], items' => .ok !items'.isEmpty
  | v :: rest, items' => match items' with
    | [] => .ok false
    | v' :: rest' => if same v v' then itemsPrecede rest rest' else precedes v v'
termination_by structural v => v

end

@[simp] theorem precedes_text (s t : String) :
    precedes (.text s) (.text t) = .ok (decide (s < t)) := rfl

end Value

namespace Sorting

variable {α : Type}

/-- The place of an item in a sorted list, found by halving the interval `[low, high)`. -/
def place (before : α → α → Except Fault Bool) (item : α) (sorted : List α) :
    (fuel : Nat) → (low high : Nat) → Except Fault Nat
  | 0, low, _ => .ok low
  | fuel + 1, low, high =>
    if low < high then
      let middle := (low + high) / 2
      match sorted[middle]? with
      | none => .ok low
      | some other => do
        if ← before item other then place before item sorted fuel low middle
        else place before item sorted fuel (middle + 1) high
    else .ok low

def insert (before : α → α → Except Fault Bool) (sorted : List α) (item : α) :
    Except Fault (List α) := do
  let i ← place before item sorted (sorted.length + 1) 0 sorted.length
  return sorted.take i ++ item :: sorted.drop i

/-- The longest run at the front in which each item stands to the one before it as asked: the
run, last item first, and what is left. -/
def run (before : α → α → Except Fault Bool) (descending : Bool) (last : α) (reversed : List α) :
    List α → Except Fault (List α × List α)
  | [] => .ok (reversed, [])
  | item :: rest => do
    if (← before item last) == descending then
      run before descending item (item :: reversed) rest
    else return (reversed, item :: rest)

/-- A stable sort: the first run as it stands, or reversed where it falls, and every later item
inserted in turn. -/
def sort (before : α → α → Except Fault Bool) : List α → Except Fault (List α)
  | [] => .ok []
  | [item] => .ok [item]
  | first :: second :: rest => do
    let descending ← before second first
    let (reversed, left) ← run before descending second [second, first] rest
    left.foldlM (insert before) (if descending then reversed else reversed.reverse)

end Sorting

def Value.sorted (values : List Value) : Except Fault (List Value) :=
  Sorting.sort Value.precedes values

def sortedNames (names : List String) : List String :=
  names.mergeSort fun s t => decide (s ≤ t)

end OptionHost
