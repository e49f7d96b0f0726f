import OptionHost.Fault
import OptionHost.Value.Entries

/-!
# What a script does

The behaviour of a script, seen from outside: a tree that branches on what the host answers to
each of its calls. An interpreter turns a script into a behaviour; how it treats a call that
fails is the interpreter's own affair and is settled when the tree is made.
-/

namespace OptionHost

inductive Behaviour where
  | returns (v : Value)
  | raises (r : Raised)
  | calls (name : String) (args : List Value) (kwargs : Entries) (next : Outcome → Behaviour)
  | prints (text : String) (next : Behaviour)
  /-- Comes to a halt until the evaluation is given up. -/
  | blocks (next : Behaviour)
  /-- Yields something that is neither a call nor an end. -/
  | strays
  deriving Inhabited

/-- A script as the interpreter finds it when it reads the text. -/
inductive Source where
  | unreadable (message : String)
  | readable (behaviour : Behaviour)
  deriving Inhabited

/-- The interpreters, and the stand-in that performs calls without any interpreter. -/
inductive Interpreter where
  | starlark
  | monty
  | standIn
  deriving DecidableEq, Repr, Inhabited

/-- A failure that an engine reports for a script. One that has no text cannot be reported. -/
def reportedFailure (r : Raised) : Raised :=
  match r.text? with
  | some text => ⟨.failed (.reported text), some r.fault⟩
  | none => Fault.unwritable

theorem reportedFailure_of_text {r : Raised} {text : String} (said : r.text? = some text) :
    reportedFailure r = ⟨.failed (.reported text), some r.fault⟩ := by
  unfold reportedFailure
  rw [said]

theorem reportedFailure_of_textless {r : Raised} (unsaid : r.text? = none) :
    reportedFailure r = Fault.unwritable := by
  unfold reportedFailure
  rw [unsaid]

/-- The text of a failure as the interpreters write it, with words for one that has none. -/
def Raised.described (r : Raised) : String := r.text?.getD "<exception str() failed>"

/-- What a script raises when a call fails and nothing catches the failure. -/
def Interpreter.uncaught (i : Interpreter) (r : Raised) : Raised :=
  match i with
  | .starlark => (Fault.foreign "StarlarkError" s!"{r.fault.className}: {r.described}" : Fault)
  | .monty => (Fault.foreign "MontyRuntimeError" s!"{r.fault.className}: {r.described}" : Fault)
  | .standIn => reportedFailure r

inductive Action where
  /-- A call; a failure that is caught counts as null. -/
  | call (name : String) (args : List Value) (kwargs : Entries) (caught : Bool)
  | print (text : String)
  | block
  | stray
  deriving Inhabited

inductive Ending where
  | value (v : Value)
  | result (action : Nat)
  | fault (r : Raised)
  deriving Inhabited

/-- A script without branches: actions in a row, then an ending. -/
structure Plan where
  refusal : Option String
  actions : List Action
  ending : Ending
  deriving Inhabited

namespace Plan

def finish (results : List Value) : Ending → Behaviour
  | .value v => .returns v
  | .result i => .returns (results.getD i .null)
  | .fault r => .raises r

/-- The behaviour of actions after which earlier ones had the given results. -/
def behaviourFrom (i : Interpreter) (ending : Ending) :
    List Action → (results : List Value) → Behaviour
  | [], results => finish results ending
  | .call name args kwargs caught :: rest, results =>
    .calls name args kwargs fun outcome =>
      match outcome with
      | .ok v => behaviourFrom i ending rest (results ++ [v])
      | .error r =>
        if caught then behaviourFrom i ending rest (results ++ [.null])
        else .raises (i.uncaught r)
  | .print text :: rest, results => .prints text (behaviourFrom i ending rest (results ++ [.null]))
  | .block :: rest, results => .blocks (behaviourFrom i ending rest (results ++ [.null]))
  | .stray :: _, _ => .strays

def behaviour (p : Plan) (i : Interpreter) : Behaviour := behaviourFrom i p.ending p.actions []

def source (p : Plan) (i : Interpreter) : Source :=
  match p.refusal, i with
  | some message, .starlark => .unreadable message
  | some message, .monty => .unreadable message
  | _, i => .readable (p.behaviour i)

end Plan

end OptionHost
