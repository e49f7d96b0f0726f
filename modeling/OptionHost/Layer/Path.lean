import OptionHost.Fault
import OptionHost.Value.Entries

/-!
# Paths into nested mappings

A path is a list of keys; its text joins them by points. Reading along a path never fails.
Writing changes the data in place: it makes the mappings that are missing on the way and stops
where something that is no mapping stands in the way.
-/

namespace OptionHost

abbrev KeyPath := List String

/-- The keys of a path written with points between them. -/
def KeyPath.ofText (text : String) : KeyPath :=
  (text.toList.splitOn '.').map String.ofList

/-- The value at a path, if every key on the way is bound. -/
def Value.at? : KeyPath → Value → Option Value
  | [], v => some v
  | key :: rest, .dict entries =>
    match Entries.named? key entries with
    | some v => v.at? rest
    | none => none
  | _ :: _, _ => none

def occursIn (part : List Char) : List Char → Bool
  | [] => part.isEmpty
  | c :: rest => part.isPrefixOf (c :: rest) || occursIn part rest

/-- Why a path cannot lead through a value under a key. -/
def Value.obstacle (key : String) : Value → TypeCause
  | .text s =>
    if occursIn key.toList s.toList then .textIndex "str" else .noItemAssignment "str"
  | .list _ => .sequenceIndex "list" "str"
  | .tuple items =>
    if items.any (Value.text key).same then .sequenceIndex "tuple" "str"
    else .noItemAssignment "tuple"
  | .set items =>
    if items.any (Value.text key).same then .stated "'set' object is not subscriptable"
    else .noItemAssignment "set"
  | .bytes _ => .stated "a bytes-like object is required, not 'str'"
  | v => .noMembership v.typeName

/-- Why an entry cannot be assigned to a value. -/
def Value.assignmentObstacle : Value → TypeCause
  | .list _ => .sequenceIndex "list" "str"
  | v => .noItemAssignment v.typeName

/-- Why a value that is no mapping stops a path: at its last key nothing can be assigned, and
before that it leads no further. -/
def Value.blockage (key : String) (rest : KeyPath) (v : Value) : TypeCause :=
  if rest.isEmpty then v.assignmentObstacle else v.obstacle key

/-- Data that were written to in place: what they are then, as far as the writing came, and what
stopped it. -/
structure Written where
  data : Value
  fault : Option Fault

/-- Where a key leads from a mapping: to what it is bound to, or else to a new mapping. -/
def Entries.branch (key : String) (entries : Entries) : Value :=
  (entries.named? key).getD (.dict [])

/-- A value written at a path. A mapping that is missing is made before the way goes on. -/
def Value.write (value : Value) : KeyPath → Value → Written
  | [], _ => ⟨value, none⟩
  | key :: rest, .dict entries =>
    let inner := value.write rest (Entries.branch key entries)
    ⟨.dict (Entries.put key inner.data entries), inner.fault⟩
  | key :: rest, data => ⟨data, some (.wrongType (data.blockage key rest))⟩

/-- The data with a value put at a path, if it can be written there. -/
def Value.put (value : Value) (path : KeyPath) (data : Value) : Except Fault Value :=
  let done := value.write path data
  match done.fault with
  | none => .ok done.data
  | some fault => .error fault

theorem Value.put_eq_ok {value data data' : Value} {path : KeyPath} :
    value.put path data = .ok data' ↔ value.write path data = ⟨data', none⟩ := by
  rw [put]
  generalize value.write path data = done
  obtain ⟨after, fault⟩ := done
  cases fault <;> simp

end OptionHost
