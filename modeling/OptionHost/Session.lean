import OptionHost.Runner

/-!
# Sessions

Requests to a host, and the responses of its listeners, which are requests again. The depth to
which responses may nest is a parameter; a session whose listeners nest deeper has no result.
-/

namespace OptionHost

inductive Reply where
  | value (v : Value)
  /-- What came of each evaluation, and whether the runner is closed afterwards. -/
  | outcomes (results : List Outcome) (closed : Bool)
  deriving Inhabited

def Reply.toValue : Reply → Value
  | .value v => v
  | .outcomes .. => .null

def Reaction.carryOut {ρ : Type} (perform : ρ → Act Reply) : Reaction ρ → Act Unit
  | .returns => return
  | .raises r => throw r
  | .does request next => do
    let outcome ← Act.attempt (do return (← perform request).toValue)
    (next outcome).carryOut perform

namespace Session

def texts (names : List String) : Value := .list (names.map .text)

def managedRow (o : OptionName) : Value :=
  .list [.text o.name, .text o.valueType, .bool o.isEnumerated, .text (Accessor.getter o).name,
    .text (Accessor.setter o).name]

def levelOf (v : Value) : Except Fault Level :=
  match v with
  | .text s =>
    match Level.ofName? s with
    | some level => .ok level
    | none => refused
  | _ => refused
where
  refused : Except Fault Level :=
    .error (.invalid "LoggingConfig" [⟨.notAmong (Level.all.map Level.name), [.text "level"]⟩])

def levelRecord (level : Level) : Record :=
  ⟨.debug, .loader, "Set scriptable_editor log level to " ++ level.name⟩

def setLevel (level : Level) : Act Unit := do
  modify fun h => { h with level := level }
  Act.say (levelRecord level)

/-- Registers a listener; what an identifier stands for is settled by its first registration. -/
def register (id : ListenerId) (listener : Listener) : Act Unit := do
  let h ← get
  if (h.listeners.lookup id).isNone then
    modify fun h => { h with listeners := h.listeners ++ [(id, listener)] }
  Act.setStore ((← get).store.register id) none

def currentBridge : Act Nat := do return (← get).bridge.getD 0

def currentRunner : Act Nat := do return (← get).runner.getD 0

/-- A call of the current bridge by the name of the accessor. -/
def access (respond : Response) (name : String) (args : List Value) (kwargs : Entries) :
    Act Value := do
  match Accessor.ofName? name with
  | none => Act.fail (.unknownAttribute "OptionBridge" name)
  | some a => Act.access respond (← currentBridge) a args kwargs

/-- A call of an accessor that was handed out to an evaluation. -/
def late (respond : Response) (name : String) (args : List Value) : Act Value := do
  match (← get).injected, Accessor.ofName? name with
  | some run, some a => Act.accessWithin respond run a args []
  | _, _ => Act.fail (.unknownKey (.text name))

def evaluateWithin (respond : Response) (settings : List (String × Value)) (standIn : Bool)
    (jobs : List Job) : Act Reply := do
  let id ← Runner.openNew settings standIn
  let results ← jobs.mapM fun job => Act.attempt (Runner.evaluateTimed respond id job)
  Runner.close id
  return .outcomes results ((← Runner.at? id).any Runner.closed)

def unit (act : Act Unit) : Act Reply := do
  act
  return .value .null

def perform (respond : Response) : Request → Act Reply
  | .start => unit Act.startStore
  | .close => unit Act.closeStore
  | .stage => do return .value (.text (← get).store.stage.name)
  | .optionNames => return .value (.tuple (optionNames.map .text))
  | .get option => do return .value (← Act.ask (·.get option))
  | .set option v => unit (Act.setOption respond option v)
  | .admits option v => do return .value (.bool (← Act.ask (·.admits option v)))
  | .classNames => do return .value (.tuple (← Act.ask Store.classNames))
  | .classChars name => do return .value (← Act.ask (·.classChars name))
  | .pattern => do return .value (.text (String.ofList (← Act.ask Store.pattern).source))
  | .find text => do
    let found := (← Act.ask Store.pattern).findAll text.toList
    return .value (.list (found.map fun m =>
      .list [.int m.1, .text (String.singleton m.2)]))
  | .register id listener => unit (register id listener)
  | .unregister id => unit do Act.setStore (← Act.ask (·.unregister id)) none
  | .setLevel v => unit do setLevel (← Act.ofExcept (levelOf v))
  | .openBridge => unit (discard Act.openBridge)
  | .access name args kwargs => do return .value (← access respond name args kwargs)
  | .attached => do return .value (.bool (← Act.isAttached (← currentBridge)))
  | .detach => unit do Act.detach (← currentBridge)
  | .accessors =>
    return .value (.list [texts (Accessor.all.map Accessor.name), texts accessorNames])
  | .managed => return .value (.list (OptionName.all.map managedRow))
  | .openRunner settings standIn => unit (discard (Runner.openNew settings standIn))
  | .evaluate job => do
    return .value (← Runner.evaluateTimed respond (← currentRunner) job)
  | .evaluateWithin settings standIn jobs => evaluateWithin respond settings standIn jobs
  | .late name args => do return .value (← late respond name args)
  | .closeRunner => unit do Runner.close (← currentRunner)
  | .runnerClosed => do
    return .value (.bool ((← Runner.at? (← currentRunner)).any Runner.closed))
  | .sameBridge => do
    let runner ← Runner.at? (← currentRunner)
    return .value (.bool (runner.map Runner.bridge == (← get).bridge))

/-- The response of listeners whose own requests may nest to a depth. -/
def respond : (depth : Nat) → Response
  | 0, _, _ => fun _ => none
  | depth + 1, id, change => do
    match (← get).listeners.lookup id with
    | none => return
    | some listener => (listener change).carryOut (perform (respond depth))

def usualDepth : Nat := 80

/-- A request carried out on a host: what came of it, and the host afterwards. -/
def step (depth : Nat) (request : Request) (h : Host) : Option (Except Raised Reply × Host) :=
  perform (respond depth) request h

/-- Requests carried out one after the other, whether or not some of them fail. -/
def steps (depth : Nat) : List Request → Host → Option (List (Except Raised Reply) × Host)
  | [], h => some ([], h)
  | request :: rest, h => do
    let (reply, h) ← step depth request h
    let (replies, h) ← steps depth rest h
    return (reply :: replies, h)

end Session

end OptionHost
