import OptionHost.Engine.Basic

/-!
# The Starlark engine

This interpreter calls host functions directly and cannot be interrupted. An awaited evaluation
is given up when its time is over; the script goes on all the same, and what it does then is
its own affair.
-/

namespace OptionHost.Starlark

def ownFault (message : String) : Fault := .foreign "StarlarkError" message

def isOwnFault (r : Raised) : Bool := r.fault.className == "StarlarkError"

def helpers : Table :=
  [("json_decode", .function .jsonDecode false), ("json_encode", .function .jsonEncode false)]

/-- The names that a script begins with: the helpers, what the caller gives in their place or
beside them, and printing above all. -/
def names (config : RunnerConfig) (globals : Table) : Table :=
  let table := helpers.update globals
  if config.printing.isTrue then table.put "print" (.function .print false) else table

/-- Values reach the interpreter as JSON, which has no octets. -/
def isExpressible : Binding → Bool
  | .value (.bytes _) => false
  | _ => true

/-- Runs a script up to its end, or up to a halt if it may be given up there. A name that is
no function ends the script. -/
def drive (site : Site) (table : Table) (yields : Bool) : Behaviour → Act Progress
  | .returns v => return .ended (.ok v)
  | .raises r => return .ended (.error r)
  | .calls name args kwargs next =>
    match table.lookup name with
    | some (.function f awaited) => do
      let outcome ← site.callNoted name f awaited args kwargs
      drive site table yields (next outcome)
    | _ =>
      return .ended (.error (ownFault ("Variable " ++ String.ofList ['\x60'] ++ name ++
        String.ofList ['\x60'] ++ " not found") : Fault))
  | .prints _ next => drive site table yields next
  | .blocks next => if yields then return .stalled next else drive site table yields next
  | .strays => return .ended (.ok .null)

/-- What the engine makes of the end of a script. Faults of the interpreter are expected; any
other one is noted. -/
def conclude (outcome : Outcome) : Act Outcome := do
  match outcome with
  | .ok v => return .ok v
  | .error r =>
    if !isOwnFault r then Act.say (failureRecord .starlark r)
    return .error (reportedFailure r)

/-- Sets a script up and runs it up to its end or first halt. -/
def begin (site : Site) (globals : Table) (source : Source) (yields : Bool) : Act Progress := do
  match source with
  | .unreadable message => return .ended (.error (unreadable "StarlarkError" message))
  | .readable behaviour =>
    if globals.all fun e => isExpressible e.2 then
      let table := names site.config globals
      Act.record (.prepared site.run (.names table))
      match ← drive site table yields behaviour with
      | .ended outcome => return .ended (← conclude outcome)
      | .stalled rest => return .stalled rest
    else
      return .ended (← conclude (.error (Fault.wrongType (.notEncodable "bytes") : Fault)))

/-- An evaluation that runs to the end of its script. -/
def evaluate (site : Site) (globals : Table) (source : Source) : Act Outcome := do
  match ← begin site globals source false with
  | .ended outcome => return outcome
  | .stalled _ => return .ok .null

/-- An evaluation that is given up at a halt of its script: the outcome, and the rest of the
script. -/
def evaluateAwaited (site : Site) (globals : Table) (source : Source) :
    Act (Outcome × Option Behaviour) := do
  match ← begin site globals source true with
  | .ended outcome => return (outcome, none)
  | .stalled rest =>
    Act.say (outOfTimeRecord .starlark site.config)
    return (.error (outOfTime site.config), some rest)

/-- The rest of a script that was given up. Nobody waits for its end. -/
def release (site : Site) (globals : Table) (rest : Behaviour) : Act Unit := do
  Act.record (.released site.run)
  match ← drive site (names site.config globals) false rest with
  | .ended outcome => discard (conclude outcome)
  | .stalled _ => pure ()

end OptionHost.Starlark
