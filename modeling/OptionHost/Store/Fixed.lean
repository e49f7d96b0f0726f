import OptionHost.Bridge

/-!
# A store of fixed answers

A store that answers every question alike and keeps a list of what it was asked. Seen through
it, a bridge shows which questions it asks, and in which order.
-/

namespace OptionHost

structure FixedStore where
  value : Value
  admits : Bool
  refusal : Option Raised
  deriving Inhabited

inductive Question where
  | get (option : OptionName)
  | admits (option : OptionName) (value : Value)
  | write (option : OptionName) (value : Value)
  deriving Inhabited

structure Asked where
  questions : List Question
  records : List Record
  deriving Inhabited

namespace FixedStore

abbrev Asking := ExceptT Raised (StateM Asked)

def ask (q : Question) : Asking Unit :=
  modify fun a => { a with questions := a.questions ++ [q] }

def access (s : FixedStore) : StoreAccess Asking where
  get o := do
    ask (.get o)
    return s.value
  admits o v := do
    ask (.admits o v)
    return s.admits
  write o v := do
    ask (.write o v)
    match s.refusal with
    | some r => throw r
    | none => return
  say r := modify fun a => { a with records := a.records ++ [r] }

/-- A call of an accessor of an attached bridge over the store. -/
def call (s : FixedStore) (a : Accessor) (args : List Value) : Outcome × Asked :=
  (Bridge.call s.access true a args []).run.run ⟨[], []⟩

end FixedStore

end OptionHost
