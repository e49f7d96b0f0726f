import OptionHost.Engine.Basic
import OptionHost.Text.Blank

/-!
# The Monty engine

This interpreter stops at every call of a host function and hands out a snapshot; the host
calls the function and resumes the snapshot with what came of it. A snapshot can be resumed
once. Whatever goes wrong between a call and the next halt is handed back to the same snapshot
if the call itself succeeded: a value that the interpreter cannot take over has not used the
snapshot up, so the script learns of it, while a script that died of something else has, and
the second attempt is what the evaluation reports.
-/

namespace OptionHost.Monty

/-- The functions that every script has, behind those of the caller. -/
def helpers : Table :=
  [("json_encode", .function .jsonEncode false), ("json_decode", .function .jsonDecode false)]

def functions (globals : Table) : Table := globals.filter fun e => e.2.isFunction

def inputs (globals : Table) : Table := globals.filter fun e => !e.2.isFunction

/-- The names announced as functions; a name that the caller gives stays in its place and a
helper of the same name is announced again. -/
def external (globals : Table) : List String := (functions globals).names ++ helpers.names

def implementations (globals : Table) : Table :=
  (Table.update [] (functions globals)).update helpers

/-- What the interpreter itself keeps to: the time of the configuration, 64 MiB of memory, and
calls a hundred deep. -/
def limits (config : RunnerConfig) : Entries :=
  [(.text "max_duration_secs", config.limit), (.text "max_memory", .int (64 * 1024 * 1024)),
    (.text "max_recursion_depth", .int 100)]

def isConvertible : Value → Bool
  | .object _ => false
  | _ => true

def alreadyResumed : Raised := (Fault.foreign "RuntimeError" "Progress already resumed" : Fault)

def notConvertible : Raised := (Fault.wrongType .notConvertible : Fault)

/-- The faults of the interpreter itself, syntax errors apart. -/
def isOwnFault (r : Raised) : Bool :=
  r.fault.className == "MontyError" || r.fault.className == "MontyRuntimeError"

/-- What the engine makes of a fault that ends an evaluation. Faults of the interpreter and of
scripting are expected; any other one is noted. -/
def settle (r : Raised) : Act Raised := do
  match r.fault with
  | .foreign "MontySyntaxError" message => return unreadable "MontySyntaxError" message
  | .malformed .. | .failed _ | .timedOut .. => return r
  | _ =>
    if !isOwnFault r then Act.say (failureRecord .monty r)
    return reportedFailure r

/-- Text that a script prints; line breaks at its end do not count. -/
def print (site : Site) (text : String) : Act Unit := do
  let stripped := Text.trimRight (· == '\n') text.toList
  if site.config.printing.isTrue && !stripped.isEmpty then
    site.output .monty (String.ofList stripped)

def resume (site : Site) (snapshot : Nat) (used : Bool) (given : Outcome) : Act Unit :=
  Act.record (.resumed site.run snapshot used given)

/-- Calls the function that a snapshot stands at and resumes the snapshot with what came of it;
a function that never returns leaves nothing to resume with. A value that the interpreter cannot
take over is refused, and the refusal is handed to the same snapshot. -/
def answer (site : Site) (table : Table) (snapshot : Nat) (name : String) (args : List Value)
    (kwargs : Entries) : Act (Option Outcome) := do
  match table.lookup name with
  | some (.function .forever true) => return none
  | some (.function f _) => do
    let result ← Act.attempt (site.invoke f args kwargs)
    resume site snapshot false result
    match result with
    | .ok v =>
      if isConvertible v then return some (.ok v)
      else
        resume site snapshot false (.error notConvertible)
        return some (.error notConvertible)
    | .error r => return some (.error r)
  | _ => do
    resume site snapshot false (.error (undefinedName name))
    return some (.error (undefinedName name))

/-- Runs a script call by call, with the number of snapshots handed out so far. `afterValue` says
that the last of them was resumed with a value: a fault met from there to the next halt is handed
to that snapshot a second time. -/
def drive (site : Site) (table : Table) :
    (snapshots : Nat) → (afterValue : Bool) → Behaviour → Act Progress
  | _, _, .returns v => return .ended (.ok v)
  | snapshots, afterValue, .raises r => do
    if afterValue then
      resume site snapshots true (.error r)
      return .ended (.error (← settle alreadyResumed))
    else return .ended (.error (← settle r))
  | _, _, .strays => return .ended (.error (Fault.failed .unexpectedProgress : Fault))
  | snapshots, afterValue, .prints text next => do
    print site text
    drive site table snapshots afterValue next
  | _, _, .blocks next => return .stalled next
  | snapshots, _, .calls name args kwargs next => do
    match ← answer site table (snapshots + 1) name args kwargs with
    | none => return .stalled (next (.ok .null))
    | some given =>
      Act.record (.called site.run name given)
      drive site table (snapshots + 1) given.isOk (next given)

/-- Declares the names of a script and starts it with its inputs. -/
def begin (site : Site) (globals : Table) : Act Unit := do
  Act.record (.prepared site.run (.declared (inputs globals).names (external globals)))
  Act.record (.prepared site.run
    (.started (inputs globals) (limits site.config) site.config.printing.isTrue))

/-- An evaluation, given up at a halt that is no call. -/
def evaluateAwaited (site : Site) (globals : Table) (source : Source) : Act Outcome := do
  match source with
  | .unreadable message => return .error (unreadable "MontySyntaxError" message)
  | .readable behaviour =>
    begin site globals
    match ← drive site (implementations globals) 0 false behaviour with
    | .ended outcome => return outcome
    | .stalled _ =>
      Act.say (outOfTimeRecord .monty site.config)
      return .error (outOfTime site.config)

end OptionHost.Monty
