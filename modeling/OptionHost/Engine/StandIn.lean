import OptionHost.Engine.Basic

/-!
# The stand-in engine

Performs the calls of a script on the names it is given, without an interpreter, and adds no
names of its own. A name that is no function is a failure of the call that uses it.
-/

namespace OptionHost.StandIn

def drive (site : Site) (table : Table) : Behaviour → Act Outcome
  | .returns v => return .ok v
  | .raises r => return .error r
  | .calls name args kwargs next =>
    match table.lookup name with
    | some (.function f awaited) => do
      let outcome ← site.callNoted name f awaited args kwargs
      drive site table (next outcome)
    | _ => drive site table (next (.error (undefinedName name)))
  | .prints _ next => drive site table next
  | .blocks next => drive site table next
  | .strays => return .ok .null

def evaluate (site : Site) (globals : Table) (source : Source) : Act Outcome := do
  match source with
  | .unreadable _ => return .ok .null
  | .readable behaviour =>
    Act.record (.prepared site.run (.names globals))
    drive site globals behaviour

end OptionHost.StandIn
