import OptionHost.Fault
import OptionHost.Value.Entries

/-!
# Layers of a configuration

A layer laid over another one: mappings that meet are merged entry by entry, and any other
value of the upper layer replaces what lies beneath it. New keys follow the keys of the lower
layer.
-/

namespace OptionHost

namespace Value

mutual

/-- A value of the upper layer over what the lower layer has in its place, if anything. -/
def laidOver : Value → Option Value → Value
  | .dict entries, beneath => match beneath with
    | some (.dict lower) => .dict (entriesOver entries lower)
    | _ => .dict entries
  | v, _ => v
termination_by structural v => v

/-- The entries of the upper layer, one after the other, over those of the lower one. -/
def entriesOver : List (Value × Value) → Entries → Entries
  | [], lower => lower
  | e :: rest, lower => entriesOver rest (entryOver e lower)
termination_by structural v => v

def entryOver : Value × Value → Entries → Entries
  | (k, v), lower => lower.put k (laidOver v (lower.get? k))
termination_by structural v => v

end

end Value

def Entries.merge (lower upper : Entries) : Entries := Value.entriesOver upper lower

@[simp] theorem Entries.merge_nil (lower : Entries) : lower.merge [] = lower := rfl

/-- Assignment of one entry to something that is no mapping. Only a list can take it, at an
index that it has. -/
def Value.assignItem (target key value : Value) : Except Fault Value :=
  match target with
  | .list items =>
    match key.integer? with
    | none => .error (.wrongType (.sequenceIndex "list" key.typeName))
    | some n =>
      let i := if n < 0 then n + items.length else n
      if 0 ≤ i && i < items.length then .ok (.list (items.set i.toNat value))
      else .error .indexOutOfRange
  | v => .error (.wrongType (.noItemAssignment v.typeName))

/-- One entry over a value that is no mapping. -/
def Value.entryOverItem (target : Value) (key value : Value) : Except Fault Value :=
  if value.isDict then .error (.unknownAttribute target.typeName "get")
  else target.assignItem key value

/-- Layers that need not be mappings. An upper layer that is none is a fault, and a lower one
that is none takes at most assignments to its items. -/
def mergeLayers (lower upper : Value) : Except Fault Value :=
  match upper with
  | .dict entries =>
    match lower with
    | .dict lower => .ok (.dict (Entries.merge lower entries))
    | lower => entries.foldlM (fun target e => target.entryOverItem e.1 e.2) lower
  | upper => .error (.unknownAttribute upper.typeName "items")

def mergeAll (lowest : Value) (layers : List Value) : Except Fault Value :=
  layers.foldlM mergeLayers lowest

def Entries.mergeAll (layers : List Entries) : Entries := layers.foldl Entries.merge []

end OptionHost
