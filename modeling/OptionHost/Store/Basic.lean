import OptionHost.Store.Pattern
import OptionHost.Value.Order

/-!
# The option store

The one owner of the option values of a host. A store begins uninitialized, becomes ready
once, and is closed for good. While it is ready it holds a value for every option and the
pattern of the current break-at class, which change together. Operations are pure; the parties
to be told of a change are listed, in order of registration, and told by the host.
-/

namespace OptionHost

inductive OptionName where
  | wrap
  | lineBreak
  | breakAt
  deriving DecidableEq, Repr, Inhabited

namespace OptionName

def all : List OptionName := [.wrap, .lineBreak, .breakAt]

def name : OptionName → String
  | .wrap => "wrap"
  | .lineBreak => "line_break"
  | .breakAt => "break_at"

/-- The fault of a name that no option has; the message is written as it is raised. -/
def unknown (v : Value) : Fault :=
  match v.plain? with
  | some text => .unknownKey (.text ("Unknown option: " ++ text))
  | none => .unwritable

/-- The option of a name. Any value may be asked for; one that cannot be a key is a fault. A set
can be looked for among the names although it cannot be a key. -/
def ofValue (v : Value) : Except Fault OptionName :=
  match v with
  | .text "wrap" => .ok .wrap
  | .text "line_break" => .ok .lineBreak
  | .text "break_at" => .ok .breakAt
  | .set items => .error (unknown (.set items))
  | v =>
    match v.unkeyed? with
    | some typeName => .error (.wrongType (.notKey typeName))
    | none => .error (unknown v)

@[simp] theorem ofValue_name (o : OptionName) : ofValue (.text o.name) = .ok o := by
  cases o <;> rfl

end OptionName

structure OptionValues where
  wrap : Value
  lineBreak : Value
  breakAt : Value
  deriving Inhabited

namespace OptionValues

/-- Wrapped lines, broken anywhere, with the ASCII class selected. -/
def initial : OptionValues := ⟨.bool true, .bool false, .text "ascii"⟩

def get (values : OptionValues) : OptionName → Value
  | .wrap => values.wrap
  | .lineBreak => values.lineBreak
  | .breakAt => values.breakAt

def set (values : OptionValues) (v : Value) : OptionName → OptionValues
  | .wrap => { values with wrap := v }
  | .lineBreak => { values with lineBreak := v }
  | .breakAt => { values with breakAt := v }

theorem get_set (values : OptionValues) (v : Value) (o p : OptionName) :
    (values.set v o).get p = if o = p then v else values.get p := by
  cases o <;> cases p <;> rfl

end OptionValues

/-- The break-at classes that a host has unless it is told otherwise. -/
def builtinClasses : Entries :=
  [(.text "ascii", .text " \t!@*-+;:,./?"), (.text "whitespace", .text " \t")]

/-- What a store holds in each stage of its life. -/
inductive Condition where
  | uninitialized
  | ready (values : OptionValues) (pattern : Pattern)
  | closed
  deriving Inhabited

def Condition.stage : Condition → Lifecycle
  | .uninitialized => .uninitialized
  | .ready .. => .ready
  | .closed => .closed

abbrev ListenerId := String

structure Change where
  option : OptionName
  old : Value
  new : Value
  deriving Inhabited

/-- Whether the value before a write and the value written differ. -/
def Change.isReal (c : Change) : Bool := !c.old.same c.new

structure Store where
  /-- The values that the store takes on when it becomes ready. -/
  initial : OptionValues
  classes : Entries
  condition : Condition
  /-- The registrations, in order; one party may be registered several times. -/
  listeners : List ListenerId
  deriving Inhabited

namespace Store

/-- A store that is not ready yet. Classes without characters are refused. -/
def create (initial : OptionValues) (classes : Entries) : Except Fault Store := do
  let hollow := (classes.filter fun e => !e.2.isTrue).map Prod.fst
  let names ← Value.sorted hollow
  if names.isEmpty then return ⟨initial, classes, .uninitialized, []⟩
  else throw (Fault.wrongValue (.emptyClasses names)).formed

def stage (s : Store) : Lifecycle := s.condition.stage

/-- The characters of a class, whatever value names it. -/
def classOf (s : Store) (name : Value) : Except Fault (Option Value) :=
  match name.unkeyed? with
  | some typeName => .error (.wrongType (.notKey typeName))
  | none => .ok (Entries.get? name s.classes)

def sortedClasses (s : Store) : Except Fault (List Value) := Value.sorted (Entries.keys s.classes)

/-- The fault of a default class that there is not. Its name is written before the names that
there are get sorted. -/
def unknownDefault (s : Store) : Except Fault Fault :=
  if s.initial.breakAt.isWritable then do
    return (Fault.wrongValue (.unknownDefaultClass s.initial.breakAt (← s.sortedClasses))).formed
  else return .unwritable

/-- The ready store, if it is not ready or closed yet. -/
def start (s : Store) : Except Fault Store := do
  match s.condition with
  | .ready .. => return s
  | .closed => throw (.hostState .reopened)
  | .uninitialized =>
    match ← s.classOf s.initial.breakAt with
    | none => throw (← s.unknownDefault)
    | some chars =>
      let pattern ← Pattern.ofClass chars
      return { s with condition := .ready s.initial pattern }

/-- The closed store, its values and registrations gone. -/
def close (s : Store) : Store :=
  match s.condition with
  | .closed => s
  | _ => { s with condition := .closed, listeners := [] }

/-- The values and the pattern of a ready store, on behalf of an option. -/
def require (s : Store) (option : Value) : Except Fault (OptionValues × Pattern) :=
  match s.condition with
  | .ready values pattern => .ok (values, pattern)
  | condition => .error (.hostState (.notReady condition.stage option))

def get (s : Store) (option : Value) : Except Fault Value := do
  let (values, _) ← s.require option
  return values.get (← OptionName.ofValue option)

/-- Whether the policy of the host admits a value: a truth value, or the name of a class. -/
def admits (s : Store) (option value : Value) : Except Fault Bool := do
  let _ ← s.require option
  match ← OptionName.ofValue option with
  | .breakAt => return value.isText && Entries.contains value s.classes
  | _ => return value.isBool

/-- The change that a write makes, with the store after it. -/
def write (s : Store) (option value : Value) : Except Fault (Change × Store) := do
  let (values, pattern) ← s.require option
  if !(← s.admits option value) then
    throw (Fault.wrongValue (.invalidOption option value)).formed
  let name ← OptionName.ofValue option
  let change := ⟨name, values.get name, value⟩
  match name with
  | .breakAt =>
    let pattern ← Pattern.ofClass ((Entries.get? value s.classes).getD .null)
    return (change, { s with condition := .ready (values.set value name) pattern })
  | name => return (change, { s with condition := .ready (values.set value name) pattern })

/-- The names of the classes that a ready store accepts. -/
def classNames (s : Store) : Except Fault (List Value) := do
  let _ ← s.require OptionName.breakAt.name
  s.sortedClasses

/-- The characters of a class, or of the current one. -/
def classChars (s : Store) (name : Value) : Except Fault Value := do
  let (values, _) ← s.require OptionName.breakAt.name
  let name :=
    match name with
    | .null => values.breakAt
    | name => name
  match ← s.classOf name with
  | some chars => return chars
  | none => throw (.unknownKey name)

def pattern (s : Store) : Except Fault Pattern := do
  let (_, pattern) ← s.require OptionName.breakAt.name
  return pattern

def register (s : Store) (id : ListenerId) : Store :=
  { s with listeners := s.listeners ++ [id] }

/-- The store without the first registration of a party. -/
def unregister (s : Store) (id : ListenerId) : Except Fault Store :=
  if s.listeners.contains id then .ok { s with listeners := s.listeners.erase id }
  else .error (.wrongValue .notRegistered)

end Store

def optionNames : List String := sortedNames (OptionName.all.map OptionName.name)

end OptionHost
