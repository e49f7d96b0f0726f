import OptionHost.Behaviour
import OptionHost.Engine.Monty
import OptionHost.Engine.Starlark
import OptionHost.Json.Printer
import OptionHost.Json.Reader
import OptionHost.Script.Program

/-!
# What structured scripts do

The behaviour of a structured script under each interpreter. Evaluation passes on what is to
happen next, because a call hands control to the host: what follows a call depends on what the
host answers.
-/

namespace OptionHost

/-- A value as a script gets hold of it. One interpreter takes values over as JSON. -/
def Interpreter.take (i : Interpreter) (v : Value) : Except Fault Value :=
  match i with
  | .starlark => do Json.read (← Json.write Json.Style.plain v).toList
  | _ => .ok v

def Interpreter.takeRaised (i : Interpreter) (v : Value) : Except Raised Value :=
  match i.take v with
  | .ok v => .ok v
  | .error f => .error f

def Interpreter.countsTruth (i : Interpreter) : Bool := i != .starlark

def Interpreter.iteratesText (i : Interpreter) : Bool := i != .starlark

def Interpreter.handles (i : Interpreter) : Bool := i != .starlark

namespace Script

abbrev Frame := List (String × Value)

def Frame.put (name : String) (v : Value) : Frame → Frame
  | [] => [(name, v)]
  | (n, old) :: rest => if n == name then (n, v) :: rest else (n, old) :: Frame.put name v rest

def typeFault (message : String) : Raised := (Fault.wrongType (.stated message) : Fault)

def number? (i : Interpreter) : Value → Option (Int ⊕ Binary64)
  | .int n => some (.inl n)
  | .float x => some (.inr x)
  | .bool b => if i.countsTruth then some (.inl (if b then 1 else 0)) else none
  | _ => none

def toFloat : Int ⊕ Binary64 → Binary64
  | .inl n => .ofInt n
  | .inr x => x

def add (i : Interpreter) (a b : Value) : Except Raised Value :=
  match a, b with
  | .text s, .text t => .ok (.text (s ++ t))
  | .list xs, .list ys => .ok (.list (xs ++ ys))
  | .tuple xs, .tuple ys => .ok (.tuple (xs ++ ys))
  | .bytes xs, .bytes ys => .ok (.bytes (xs ++ ys))
  | a, b =>
    match number? i a, number? i b with
    | some (.inl m), some (.inl n) => .ok (.int (m + n))
    | some x, some y => .ok (.float ((toFloat x).add (toFloat y)))
    | _, _ =>
      .error (typeFault
        s!"unsupported operand type(s) for +: '{a.typeName}' and '{b.typeName}'")

def equal (i : Interpreter) (a b : Value) : Bool :=
  a.same b && (i.countsTruth || a.isBool == b.isBool)

/-- The item of a row at an index, counted from the end if negative. -/
def itemAt (i : Interpreter) (items : List Value) (index : Value) : Except Raised Value :=
  match number? i index with
  | some (.inl n) =>
    let k := if n < 0 then n + items.length else n
    match if k < 0 then none else items[k.toNat]? with
    | some v => .ok v
    | none => .error (Fault.foreign "IndexError" "index out of range" : Fault)
  | _ => .error (typeFault s!"indices must be integers, not {index.typeName}")

def characters (s : String) : List Value := s.toList.map fun c => .text (String.singleton c)

def item (i : Interpreter) (container index : Value) : Except Raised Value :=
  match container with
  | .list items => itemAt i items index
  | .tuple items => itemAt i items index
  | .text s => itemAt i (characters s) index
  | .dict entries =>
    match index.unkeyed?, Entries.get? index entries with
    | some typeName, _ => .error (Fault.wrongType (.notKey typeName) : Fault)
    | none, some v => .ok v
    | none, none => .error (Fault.unknownKey index : Fault)
  | v => .error (typeFault s!"'{v.typeName}' object is not subscriptable")

def itemsOf (i : Interpreter) : Value → Except Raised (List Value)
  | .list items => .ok items
  | .tuple items => .ok items
  | .set items => .ok items
  | .dict entries => .ok (Entries.keys entries)
  | .text s =>
    if i.iteratesText then .ok (characters s)
    else .error (Fault.wrongType (.notIterable "str") : Fault)
  | v => .error (Fault.wrongType (.notIterable v.typeName) : Fault)

/-- What goes on with a value, or with a failure. -/
structure Next (α : Type) where
  value : α → Behaviour
  failure : Raised → Behaviour

def Next.settle {α : Type} (next : Next α) : Except Raised α → Behaviour
  | .ok a => next.value a
  | .error r => next.failure r

/-- A line of text as it is printed. -/
def line? (args : List Value) : Option String :=
  (args.mapM Value.plain?).map fun texts => " ".intercalate texts ++ "\n"

/-- A call. One interpreter prints by itself; all other functions belong to the host. -/
def call (i : Interpreter) (function : String) (args : List Value) (named : Entries)
    (next : Next Value) : Behaviour :=
  if i == .monty && function == "print" then
    match line? args with
    | some text => .prints text (next.value .null)
    | none => next.failure (Fault.unwritable : Raised)
  else
    .calls function args named fun outcome =>
      next.settle (outcome.bind i.takeRaised)

mutual

def eval (i : Interpreter) (frame : Frame) : Expression → Next Value → Behaviour
  | .literal v, next => next.settle (i.takeRaised v)
  | .name n, next =>
    match frame.lookup n with
    | some v => next.value v
    | none => next.failure (undefinedName n)
  | .call f args named, next =>
    evalAll i frame args ⟨fun args =>
      evalNamed i frame named ⟨fun named => call i f args named next, next.failure⟩,
      next.failure⟩
  | .list items, next => evalAll i frame items ⟨fun vs => next.value (.list vs), next.failure⟩
  | .negation e, next =>
    eval i frame e ⟨fun v => next.value (.bool !v.isTrue), next.failure⟩
  | .conditional test yes no, next =>
    eval i frame test ⟨fun v =>
      if v.isTrue then eval i frame yes next else eval i frame no next, next.failure⟩
  | .equal a b, next =>
    eval i frame a ⟨fun v =>
      eval i frame b ⟨fun w => next.value (.bool (equal i v w)), next.failure⟩, next.failure⟩
  | .sum a b, next =>
    eval i frame a ⟨fun v =>
      eval i frame b ⟨fun w => next.settle (add i v w), next.failure⟩, next.failure⟩
  | .both a b, next =>
    eval i frame a ⟨fun v => if v.isTrue then eval i frame b next else next.value v,
      next.failure⟩
  | .either a b, next =>
    eval i frame a ⟨fun v => if v.isTrue then next.value v else eval i frame b next,
      next.failure⟩
  | .item c k, next =>
    eval i frame c ⟨fun v =>
      eval i frame k ⟨fun w => next.settle (item i v w), next.failure⟩, next.failure⟩
termination_by structural e => e

def evalAll (i : Interpreter) (frame : Frame) : List Expression → Next (List Value) → Behaviour
  | [], next => next.value []
  | e :: rest, next =>
    eval i frame e ⟨fun v =>
      evalAll i frame rest ⟨fun vs => next.value (v :: vs), next.failure⟩, next.failure⟩
termination_by structural e => e

def evalNamed (i : Interpreter) (frame : Frame) :
    List (String × Expression) → Next Entries → Behaviour
  | [], next => next.value []
  | e :: rest, next =>
    evalArgument i frame e ⟨fun p =>
      evalNamed i frame rest ⟨fun entries => next.value (p :: entries), next.failure⟩,
      next.failure⟩
termination_by structural e => e

def evalArgument (i : Interpreter) (frame : Frame) :
    String × Expression → Next (Value × Value) → Behaviour
  | (name, e), next => eval i frame e ⟨fun v => next.value (.text name, v), next.failure⟩
termination_by structural e => e

end

/-- What goes on behind statements: with the variables and the last value, or with the
variables and a failure. -/
structure Sequel where
  done : Frame → Value → Behaviour
  failed : Frame → Raised → Behaviour

def Sequel.after (sequel : Sequel) (frame : Frame) (done : Value → Behaviour) : Next Value :=
  ⟨done, sequel.failed frame⟩

/-- A body carried out for each item in turn. -/
def forEach (body : Value → Frame → (Frame → Behaviour) → Behaviour) (done : Frame → Behaviour) :
    List Value → Frame → Behaviour
  | [], frame => done frame
  | v :: rest, frame => body v frame (forEach body done rest)

mutual

def exec (i : Interpreter) : Statement → Frame → Sequel → Behaviour
  | .perform e, frame, sequel => eval i frame e (sequel.after frame (sequel.done frame))
  | .assign n e, frame, sequel =>
    eval i frame e (sequel.after frame fun v => sequel.done (frame.put n v) .null)
  | .branch test yes no, frame, sequel =>
    eval i frame test (sequel.after frame fun v =>
      let inner : Sequel := ⟨fun frame _ => sequel.done frame .null, sequel.failed⟩
      if v.isTrue then execAll i yes frame .null inner else execAll i no frame .null inner)
  | .loop n items body, frame, sequel =>
    eval i frame items (sequel.after frame fun v =>
      match itemsOf i v with
      | .error r => sequel.failed frame r
      | .ok vs =>
        forEach (fun v frame done =>
          execAll i body (frame.put n v) .null ⟨fun frame _ => done frame, sequel.failed⟩)
          (fun frame => sequel.done frame .null) vs frame)
  | .attempt body handler name, frame, sequel =>
    let inner : Sequel := ⟨fun frame _ => sequel.done frame .null, sequel.failed⟩
    execAll i body frame .null ⟨inner.done, fun frame r =>
      let frame :=
        match name with
        | some n => frame.put n (.text r.described)
        | none => frame
      execAll i handler frame .null inner⟩
  | .garbled _, frame, sequel => sequel.done frame .null
termination_by structural s => s

/-- Statements in a row; the value is that of the last one. -/
def execAll (i : Interpreter) : List Statement → Frame → (last : Value) → Sequel → Behaviour
  | [], frame, last, sequel => sequel.done frame last
  | s :: rest, frame, _, sequel =>
    exec i s frame ⟨fun frame v => execAll i rest frame v sequel, sequel.failed⟩
termination_by structural s => s

end

def frameOf (i : Interpreter) (globals : Table) : Except Fault Frame :=
  globals.filterMapM fun e =>
    match e.2 with
    | .value v => do return some (e.1, ← i.take v)
    | .function .. => return none

/-- The names that are known before a script begins. -/
def knownNames (config : RunnerConfig) (globals : Table) : List String :=
  (Starlark.names config globals).names ++ Accessor.all.map Accessor.name

/-- A name that a script uses although nothing gives it a meaning. -/
def unknownName? (config : RunnerConfig) (globals : Table) (p : Program) : Option String :=
  let (used, given) := namesOfBlock p
  used.find? fun n => !given.contains n && !(knownNames config globals).contains n

def Program.run (i : Interpreter) (p : Program) (frame : Frame) : Behaviour :=
  execAll i p frame .null ⟨fun _ v => .returns v, fun _ r => .raises (i.uncaught r)⟩

/-- A script as an interpreter finds it. One interpreter looks for names without a meaning
before anything runs. -/
def source (config : RunnerConfig) (globals : Table) (p : Program) (i : Interpreter) : Source :=
  match flawOfBlock? i.handles p with
  | some line => .unreadable (if i == .starlark then line else "invalid syntax")
  | none =>
    .readable (match frameOf i globals with
      | .error f => .raises (f : Raised)
      | .ok frame =>
        match i, unknownName? config globals p with
        | .starlark, some n => .raises (i.uncaught (undefinedName n))
        | _, _ => Program.run i p frame)

end Script

end OptionHost
