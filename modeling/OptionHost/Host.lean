import OptionHost.Behaviour
import OptionHost.Globals

/-!
# The host

The state of an editor host: its option store, the bridges, runners and evaluations that were
opened on it, the listeners, and the journal of what happened. Everything the host does is an
`Act` on this state. Listeners may call back, so an act that tells listeners of a change takes
the response of a listener as a parameter; how deep responses may nest is settled at the end,
and a nesting beyond that has no result.
-/

namespace OptionHost

structure RunnerConfig where
  engine : Value
  /-- Seconds, enforced where an evaluation is awaited. -/
  limit : Value
  printing : Value
  /-- Whether printed text also goes to the console. -/
  echoing : Value
  deriving Inhabited

namespace RunnerConfig

/-- Starlark for thirty seconds, with printing and without echo. -/
def initial : RunnerConfig :=
  ⟨.text "starlark", .float (.ofInt 30), .bool true, .bool false⟩

def assign (c : RunnerConfig) (name : String) (v : Value) : Except Fault RunnerConfig :=
  match name with
  | "engine" => .ok { c with engine := v }
  | "max_execution_time" => .ok { c with limit := v }
  | "enable_print" => .ok { c with printing := v }
  | "enable_debug" => .ok { c with echoing := v }
  | name => .error (.wrongType (.unexpectedKeyword "ScriptConfig.__init__" name))

def ofNamed (settings : List (String × Value)) : Except Fault RunnerConfig :=
  settings.foldlM (fun c s => c.assign s.1 s.2) initial

def interpreter? (c : RunnerConfig) : Option Interpreter :=
  match c.engine with
  | .text "starlark" => some .starlark
  | .text "monty" => some .monty
  | _ => none

end RunnerConfig

structure Runner where
  config : RunnerConfig
  interpreter : Interpreter
  bridge : Nat
  closed : Bool
  deriving Inhabited

/-- One evaluation of a script: the bridge that its accessors go through, whether it is over,
and the option errors of its accessors so far, the latest first. -/
structure Evaluation where
  bridge : Nat
  finished : Bool
  failures : List Raised
  deriving Inhabited

/-- The evaluation after a call of one of its accessors. -/
def Evaluation.after (e : Evaluation) : Outcome → Evaluation
  | .ok _ => e
  | .error r => if r.fault.isOptionError then { e with failures := r :: e.failures } else e

/-- What an interpreter was told before a script began. -/
inductive Setup where
  | names (table : Table)
  | declared (inputs external : List String)
  /-- The values of the inputs, the limits, and whether printed text is taken. -/
  | started (inputs : Table) (limits : Entries) (printing : Bool)
  deriving Inhabited

/-- What happened at a host. The first number says which evaluation is meant. -/
inductive Entry where
  | logged (r : Record)
  /-- The store from here on, with the write that made it so if it was one. -/
  | stored (store : Store) (write : Option Change)
  | notified (id : ListenerId) (change : Change)
  /-- The telling of a change broke off at a listener, whose failure could not be written. -/
  | cut (id : ListenerId) (change : Change)
  /-- A call of an accessor that was made for an evaluation still under way. -/
  | accessed (run : Nat) (a : Accessor) (outcome : Outcome)
  | prepared (run : Nat) (setup : Setup)
  /-- A call of a script, with what the script was given back. -/
  | called (run : Nat) (name : String) (outcome : Outcome)
  /-- A snapshot was resumed with an outcome. Of one that is `used` an earlier attempt already
  went through. -/
  | resumed (run snapshot : Nat) (used : Bool) (given : Outcome)
  | released (run : Nat)
  | printed (run : Nat) (text : String)
  deriving Inhabited

def Entry.record? : Entry → Option Record
  | .logged r => some r
  | _ => none

def Entry.run? : Entry → Option Nat
  | .accessed run .. | .prepared run _ | .called run .. | .resumed run .. | .released run
  | .printed run _ => some run
  | .logged _ | .stored .. | .notified .. | .cut .. => none

def Entry.store? : Entry → Option Store
  | .stored store _ => some store
  | _ => none

/-- What a listener does when it is told of a change: it makes requests, each depending on what
came of those before it, and returns or fails. -/
inductive Reaction (ρ : Type) where
  | returns
  | raises (r : Raised)
  | does (request : ρ) (next : Outcome → Reaction ρ)
  deriving Inhabited

structure Job where
  awaited : Bool
  globals : Option Table
  source : Interpreter → Source
  deriving Inhabited

inductive Request where
  | start
  | close
  | stage
  | optionNames
  | get (option : Value)
  | set (option value : Value)
  | admits (option value : Value)
  | classNames
  | classChars (name : Value)
  | pattern
  | find (text : String)
  | register (id : ListenerId) (listener : Change → Reaction Request)
  | unregister (id : ListenerId)
  | setLevel (level : Value)
  | openBridge
  | access (name : String) (args : List Value) (kwargs : Entries)
  | attached
  | detach
  | accessors
  | managed
  | openRunner (settings : List (String × Value)) (standIn : Bool)
  | evaluate (job : Job)
  | evaluateWithin (settings : List (String × Value)) (standIn : Bool) (jobs : List Job)
  | late (name : String) (args : List Value)
  | closeRunner
  | runnerClosed
  | sameBridge
  deriving Inhabited

abbrev Listener := Change → Reaction Request

structure Host where
  store : Store
  /-- The level that the journal is kept at. -/
  level : Level
  /-- Of each bridge, whether it is attached. -/
  bridges : List Bool
  runners : List Runner
  evaluations : List Evaluation
  /-- The bridge and the runner that requests refer to. -/
  bridge : Option Nat
  runner : Option Nat
  injected : Option Nat
  listeners : List (ListenerId × Listener)
  /-- The latest entry comes first. -/
  journal : List Entry
  deriving Inhabited

/-- A host around a store, with nothing opened on it yet. -/
def Host.ofStore (store : Store) : Host :=
  ⟨store, .debug, [], [], [], none, none, none, [], []⟩

/-- The states that the store was put into, in order. -/
def Host.history (h : Host) : List Store := h.journal.reverse.filterMap Entry.store?

def Host.records (h : Host) : List Record := h.journal.reverse.filterMap Entry.record?

/-- An act of a host: it may fail, keeping what it did to the host, and it has no result where
responses of listeners nest too deep. -/
abbrev Act := ExceptT Raised (StateT Host Option)

abbrev Response := ListenerId → Change → Act Unit

namespace Act

def fail {α : Type} (fault : Fault) : Act α := throw (fault : Raised)

def ofExcept {α : Type} : Except Fault α → Act α
  | .ok a => pure a
  | .error fault => fail fault

def ofOutcome {α : Type} : Except Raised α → Act α
  | .ok a => pure a
  | .error r => throw r

/-- An act whose failure becomes part of its result. -/
def attempt {α : Type} (act : Act α) : Act (Except Raised α) :=
  tryCatch (do return .ok (← act)) fun r => pure (.error r)

def record (e : Entry) : Act Unit := modify fun h => { h with journal := e :: h.journal }

/-- Writes to the journal, if it is kept at the level of the record and the record has a text. -/
def say (r : Record) : Act Unit := do
  if (← get).level.admits r.level && r.text.isSome then record (.logged r)

/-! ## The store -/

def ask {α : Type} (f : Store → Except Fault α) : Act α := do ofExcept (f (← get).store)

def setStore (store : Store) (write : Option Change) : Act Unit :=
  modify fun h => { h with store := store, journal := .stored store write :: h.journal }

def startRecord (values : OptionValues) : Record :=
  ⟨.info, .store, do
    return s!"Initialized option store: wrap={← values.wrap.plain?}, " ++
      s!"line_break={← values.lineBreak.plain?}, break_at={← values.breakAt.plain?}"⟩

def startStore : Act Unit := do
  let store ← ask pure
  let ready ← ofExcept store.start
  setStore ready none
  if store.stage != .ready then
    if let .ready values _ := ready.condition then
      say (startRecord values)

def closeStore : Act Unit := do
  let store ← ask pure
  setStore store.close none
  if store.stage != .closed then say ⟨.info, .store, "Closed option store"⟩

def listenerRecord (change : Change) (text : String) : Record :=
  ⟨.error, .store, s!"Option listener failed for '{change.option.name}': {text}"⟩

/-- Tells one registered party of a change. Its failure is noted and stops nothing, unless it has
no text: then the note cannot be written, and the telling breaks off. -/
def tell (respond : Response) (change : Change) (id : ListenerId) : Act Unit := do
  record (.notified id change)
  match ← attempt (respond id change) with
  | .ok () => pure ()
  | .error r =>
    match r.text? with
    | some text => say (listenerRecord change text)
    | none =>
      record (.cut id change)
      fail .unwritable

def changeRecord (change : Change) : Record :=
  ⟨.debug, .store, do
    return s!"Option '{change.option.name}' set: {← change.old.shown?} -> {← change.new.shown?}"⟩

/-- Writes an option and tells the parties that are registered at that moment, in order, if
the value is a new one. -/
def setOption (respond : Response) (option value : Value) : Act Unit := do
  let store ← ask pure
  let (change, written) ← ofExcept (store.write option value)
  setStore written (some change)
  say (changeRecord change)
  if change.isReal then store.listeners.forM (tell respond change)

/-! ## Bridges -/

/-- The store of the host, as bridges see it. -/
def storeAccess (respond : Response) : StoreAccess Act where
  get o := ask (·.get (.text o.name))
  admits o v := ask (·.admits (.text o.name) v)
  write o v := setOption respond (.text o.name) v
  say := say

def openBridge : Act Nat := do
  let id := (← get).bridges.length
  modify fun h => { h with bridges := h.bridges ++ [true], bridge := some id }
  return id

def isAttached (bridge : Nat) : Act Bool := do return (← get).bridges.getD bridge false

def detach (bridge : Nat) : Act Unit := do
  modify fun h => { h with bridges := h.bridges.set bridge false }
  say ⟨.debug, .bridge, "Option bridge detached from host store"⟩

def access (respond : Response) (bridge : Nat) (a : Accessor) (args : List Value)
    (kwargs : Entries) : Act Value := do
  Bridge.call (storeAccess respond) (← isAttached bridge) a args kwargs

/-! ## Evaluations -/

def openEvaluation (bridge : Nat) : Act Nat := do
  let id := (← get).evaluations.length
  modify fun h => { h with evaluations := h.evaluations ++ [⟨bridge, false, []⟩] }
  return id

def evaluation (id : Nat) : Act Evaluation := do
  return ((← get).evaluations[id]?).getD ⟨0, true, []⟩

/-- Books a call of an accessor that was made for an evaluation. -/
def noteAccess (id : Nat) (a : Accessor) (outcome : Outcome) : Act Unit :=
  modify fun h =>
    { h with
      evaluations := h.evaluations.modify id (·.after outcome)
      journal := .accessed id a outcome :: h.journal }

def finishEvaluation (id : Nat) : Act Unit :=
  modify fun h =>
    { h with evaluations := h.evaluations.modify id fun e => { e with finished := true } }

/-- A call of an accessor that was made for an evaluation. Its option errors are noted there;
once the evaluation is over it only fails. -/
def accessWithin (respond : Response) (id : Nat) (a : Accessor) (args : List Value)
    (kwargs : Entries) : Act Value := do
  let e ← evaluation id
  if e.finished then fail (.hostState (.abandoned a.name))
  else
    let outcome ← attempt (access respond e.bridge a args kwargs)
    noteAccess id a outcome
    ofOutcome outcome

end Act

end OptionHost
