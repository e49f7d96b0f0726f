import OptionHost.Journal
import OptionHost.Signature
import OptionHost.Store.Basic

/-!
# The option bridge

The way from a script to the option store. The bridge holds no values of its own: a getter
reads the store when it is called, and a setter checks the type of its argument, asks the store
where the option is enumerated, and writes through. It works with any store that answers the
three questions of `StoreAccess`.
-/

namespace OptionHost

namespace OptionName

/-- The name of the type of an option's values. -/
def valueType : OptionName → String
  | .breakAt => "str"
  | _ => "bool"

/-- Whether the values of an option are names that the store knows. -/
def isEnumerated : OptionName → Bool
  | .breakAt => true
  | _ => false

/-- Whether a value is of an option's type; a number is no truth value. -/
def typed (o : OptionName) (v : Value) : Bool :=
  match o with
  | .breakAt => v.isText
  | _ => v.isBool

end OptionName

inductive Accessor where
  | getter (option : OptionName)
  | setter (option : OptionName)
  deriving DecidableEq, Repr, Inhabited

namespace Accessor

def option : Accessor → OptionName
  | .getter o => o
  | .setter o => o

def name : Accessor → String
  | .getter o => "opt_get_" ++ o.name
  | .setter o => "opt_set_" ++ o.name

/-- Getter and setter of each option in turn. -/
def all : List Accessor := OptionName.all.flatMap fun o => [.getter o, .setter o]

def ofName? (name : String) : Option Accessor := all.find? fun a => a.name == name

def signature (a : Accessor) : Signature :=
  match a with
  | .getter _ => ⟨"OptionBridge." ++ a.name, ["self"], [], false⟩
  | .setter _ => ⟨"OptionBridge." ++ a.name, ["self", "value"], [], false⟩

/-- The value that a call hands to a setter; a getter takes none. -/
def argument (a : Accessor) (args : List Value) (kwargs : Entries) : Except Fault Value := do
  let bound ← a.signature.bind (.null :: args) kwargs
  return (bound.lookup "value").getD .null

theorem ofName?_name (a : Accessor) : ofName? a.name = some a := by
  cases a with
  | getter o => cases o <;> decide
  | setter o => cases o <;> decide

end Accessor

def accessorNames : List String := sortedNames (Accessor.all.map Accessor.name)

structure StoreAccess (m : Type → Type) where
  get : OptionName → m Value
  admits : OptionName → Value → m Bool
  write : OptionName → Value → m Unit
  say : Record → m Unit

namespace Bridge

variable {m : Type → Type} [Monad m] [MonadExceptOf Raised m]

def refuse {α : Type} (fault : Fault) : m α := throw (fault : Raised)

def require (attached : Bool) (o : OptionName) : m Unit :=
  if attached then pure () else refuse (.hostState (.detached o.name))

/-- The value of an option, which has to be of the option's type. -/
def get (store : StoreAccess m) (attached : Bool) (o : OptionName) : m Value := do
  require attached o
  let v ← store.get o
  if o.typed v then return v
  else refuse (.hostState (.inconsistent o.name v.typeName o.valueType))

/-- The fault of a value that a setter does not take. -/
def rejection (o : OptionName) (v : Value) (reason : String) : Fault :=
  (Fault.rejected (.text o.name) v (.text reason)).formed

def rejectionRecord (o : OptionName) (v : Value) (reason : String) : Record :=
  ⟨.warning, .bridge, v.shown?.map (s!"Rejected {·} for option '{o.name}': {reason}")⟩

def setRecord (o : OptionName) (v : Value) : Record :=
  ⟨.debug, .bridge, v.shown?.map (s!"Script set option '{o.name}' to {·}")⟩

/-- A refusal of the store as a rejection, which quotes it. -/
def reported (o : OptionName) (v : Value) (r : Raised) : Raised :=
  match r.text? with
  | some reason => ⟨rejection o v reason, some r.fault⟩
  | none => Fault.unwritable

/-- Writes an option. What the store itself refuses as a wrong value is reported as a
rejection, with the refusal as its cause. -/
def set (store : StoreAccess m) (attached : Bool) (o : OptionName) (v : Value) : m Unit := do
  require attached o
  if !o.typed v then
    store.say (rejectionRecord o v "wrong type")
    refuse (rejection o v ("expected " ++ o.valueType))
  if o.isEnumerated then
    if !(← store.admits o v) then
      store.say (rejectionRecord o v "not an allowed value")
      refuse (rejection o v "not an allowed value")
  try
    store.write o v
  catch r =>
    if r.fault.isWrongValue then throw (reported o v r) else throw r
  store.say (setRecord o v)

def call (store : StoreAccess m) (attached : Bool) (a : Accessor) (args : List Value)
    (kwargs : Entries) : m Value := do
  match a.argument args kwargs with
  | .error fault => refuse fault
  | .ok v =>
    match a with
    | .getter o => get store attached o
    | .setter o => do
      set store attached o v
      return .null

end Bridge

end OptionHost
