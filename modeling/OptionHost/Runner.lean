import OptionHost.Engine.Monty
import OptionHost.Engine.StandIn
import OptionHost.Engine.Starlark

/-!
# Script runners

A runner couples an engine with a bridge that is opened with it and detached when it is
closed. Each evaluation has accessors of its own. A script that dies of a rejected option call
is reported by that rejection, and accessors are worthless once their evaluation is over. An
awaited evaluation is timed, by a clock that is set to the limit beforehand.
-/

namespace OptionHost.Runner

def engineRecord (i : Interpreter) (config : RunnerConfig) : Option Record :=
  let text (name : String) :=
    config.limit.plain?.map (s!"Initialized {name} with config: max_execution_time={·}")
  match i with
  | .starlark => some ⟨.info, .starlark, text "StarlarkEngine"⟩
  | .monty => some ⟨.info, .monty, text "MontyEngine"⟩
  | .standIn => none

def openEngine (config : RunnerConfig) : Act Interpreter := do
  match config.interpreter? with
  | none => Act.fail (Fault.wrongValue (.unknownEngine config.engine)).formed
  | some i =>
    if let some r := engineRecord i config then Act.say r
    return i

def openRecord (config : RunnerConfig) : Record :=
  ⟨.info, .runner, config.engine.plain?.map fun engine =>
    s!"Initialized ScriptRuntime (engine={engine}) with option bridge at {bridgeName}"⟩

/-- Opens a runner with a bridge of its own, which becomes the current one. -/
def openNew (settings : List (String × Value)) (standIn : Bool) : Act Nat := do
  let config ← Act.ofExcept (RunnerConfig.ofNamed settings)
  let interpreter ← if standIn then pure .standIn else openEngine config
  let bridge ← Act.openBridge
  let id := (← get).runners.length
  modify fun h =>
    { h with runners := h.runners ++ [⟨config, interpreter, bridge, false⟩], runner := some id }
  Act.say (openRecord config)
  return id

def at? (id : Nat) : Act (Option Runner) := do return (← get).runners[id]?

/-- Detaches the bridge; a runner is closed once. -/
def close (id : Nat) : Act Unit := do
  match ← at? id with
  | none => pure ()
  | some runner =>
    if !runner.closed then
      Act.detach runner.bridge
      modify fun h =>
        { h with runners := h.runners.modify id fun runner => { runner with closed := true } }
      Act.say ⟨.info, .runner, "Closed ScriptRuntime"⟩

def refusal? (runner : Runner) (job : Job) : Option Fault :=
  if !job.awaited && !runner.config.engine.same (.text "starlark") then
    some (Fault.script (.asyncOnly runner.config.engine)).formed
  else if runner.closed then some (.script .runnerClosed)
  else
    match (job.globals.getD []).collisions with
    | [] => none
    | names => some (.wrongValue (.reservedNames names))

/-- Runs the engine: its outcome, and the rest of a script that was given up. -/
def runEngine (i : Interpreter) (site : Site) (globals : Table) (job : Job) :
    Act (Outcome × Option Behaviour) := do
  let source := job.source i
  match i with
  | .standIn => return (← StandIn.evaluate site globals source, none)
  | .monty => return (← Monty.evaluateAwaited site globals source, none)
  | .starlark =>
    if job.awaited then Starlark.evaluateAwaited site globals source
    else return (← Starlark.evaluate site globals source, none)

/-- What an evaluation reports: a script error gives way to the last option error that the
evaluation saw, which then has the script error as its cause. -/
def report (e : Evaluation) : Outcome → Outcome
  | .ok v => .ok v
  | .error r =>
    if r.fault.isScriptError then
      match e.failures with
      | failure :: _ => .error (failure.because r.fault)
      | [] => .error r
    else .error r

/-- The names that a job gives to its script, with the accessors of the evaluation. -/
def names (job : Job) (run : Nat) : Table := (job.globals.getD []).update (accessorTable run)

/-- Ends an evaluation: its accessors are revoked, a script that was given up goes on, and the
report is handed over. -/
def finish (site : Site) (globals : Table) (outcome : Outcome) (rest : Option Behaviour) :
    Act Value := do
  let reported := report (← Act.evaluation site.run) outcome
  Act.finishEvaluation site.run
  if let some rest := rest then Starlark.release site globals rest
  Act.ofOutcome reported

def evaluate (respond : Response) (id : Nat) (job : Job) : Act Value := do
  match ← at? id with
  | none => Act.fail (.script .runnerClosed)
  | some runner =>
    if let some fault := refusal? runner job then Act.fail fault
    let run ← Act.openEvaluation runner.bridge
    if runner.interpreter == .standIn then modify fun h => { h with injected := some run }
    let site : Site := ⟨run, runner.config, respond⟩
    let ran ← runEngine runner.interpreter site (names job run) job
    finish site (names job run) ran.1 ran.2

/-- A limit that is up before anything begins. -/
def isUp : Value → Bool
  | .bool b => !b
  | .int n => n ≤ 0
  | .float x => x.compareRatio? 0 1 == some .lt || x.isZero
  | _ => false

/-- What comes of setting a clock to a limit, if not a clock that runs: the limit is up, or it is no
number, or one that is out of the range of the clock. -/
def clockFault? (config : RunnerConfig) : Option Raised :=
  if isUp config.limit then some (outOfTime config)
  else
    match config.limit with
    | .null | .bool _ | .float _ => none
    | .int n =>
      if (Binary64.ofInt n).isFinite then none
      else some (Fault.foreign "OverflowError" "int too large to convert to float" : Fault)
    | limit => some (Fault.wrongType (.notBounded limit.typeName) : Fault)

/-- What an evaluation that is not refused ends with because nobody can wait for it, if it does. -/
def untimed? (runner : Runner) (job : Job) : Option Raised :=
  if job.awaited && runner.interpreter != .standIn && (refusal? runner job).isNone then
    clockFault? runner.config
  else none

/-- Engines note a limit that is up. -/
def noteLimit (i : Interpreter) (config : RunnerConfig) : Act Unit := do
  if isUp config.limit then
    match i with
    | .starlark => Act.say (outOfTimeRecord .starlark config)
    | .monty => Act.say (outOfTimeRecord .monty config)
    | .standIn => pure ()

/-- What goes on although nobody waits for it: Starlark has taken the script over by then, while
Monty never starts. -/
def unawaited (i : Interpreter) (site : Site) (globals : Table) (job : Job) : Act Unit :=
  match i with
  | .starlark => discard (Starlark.evaluate site globals (job.source i))
  | _ => pure ()

/-- An evaluation as callers ask for it, which is over at once where it cannot be waited for. -/
def evaluateTimed (respond : Response) (id : Nat) (job : Job) : Act Value := do
  match (← at? id).bind fun runner => (untimed? runner job).map (runner, ·) with
  | none => evaluate respond id job
  | some (runner, r) =>
    let run ← Act.openEvaluation runner.bridge
    noteLimit runner.interpreter runner.config
    Act.finishEvaluation run
    unawaited runner.interpreter ⟨run, runner.config, respond⟩ (names job run) job
    throw r

/-- Evaluates a script on an engine of its own, without a runner. -/
def evaluateAlone (respond : Response) (settings : List (String × Value)) (job : Job) :
    Act Value := do
  let config ← Act.ofExcept (RunnerConfig.ofNamed settings)
  let i ← openEngine config
  if i == .monty && !job.awaited then Act.fail (.unknownAttribute "MontyEngine" "evaluate")
  let site : Site := ⟨0, config, respond⟩
  let globals := job.globals.getD []
  match if job.awaited then clockFault? config else none with
  | some r =>
    noteLimit i config
    unawaited i site globals job
    throw r
  | none =>
    let (outcome, rest) ← runEngine i site globals job
    if let some rest := rest then Starlark.release site globals rest
    Act.ofOutcome outcome

end OptionHost.Runner
