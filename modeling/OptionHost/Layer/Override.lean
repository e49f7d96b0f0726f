import OptionHost.Journal
import OptionHost.Layer.Path
import OptionHost.Number.Literal

/-!
# Overrides from the environment

A table says which variable overrides which path of the configuration and how its text is
read. Variables that are not set, or whose text cannot be read, leave the data as they are.
-/

namespace OptionHost

inductive TextKind where
  | text
  | integer
  | float
  | bool
  deriving DecidableEq, Repr, Inhabited

def TextKind.read (kind : TextKind) (text : String) : Except Fault Value :=
  match kind with
  | .text => .ok (.text text)
  | .integer => (Literal.readInteger text).map .int
  | .float => (Literal.readFloat text).map .float
  | .bool => (Literal.readBool text).map .bool

/-- A variable that overrides the value at a path. -/
structure Override where
  name : String
  path : String
  kind : TextKind
  deriving DecidableEq, Repr, Inhabited

/-- The variables of a process, each with its text. -/
abbrev Environment := List (String × String)

def Environment.get? (env : Environment) (name : String) : Option String := env.lookup name

def Override.table : List Override := [
  ⟨"EDITOR_WRAP", "options.wrap", .bool⟩,
  ⟨"EDITOR_LINE_BREAK", "options.line_break", .bool⟩,
  ⟨"EDITOR_BREAK_AT", "options.break_at", .text⟩,
  ⟨"EDITOR_SCRIPT_ENGINE", "scripting.engine", .text⟩,
  ⟨"EDITOR_SCRIPT_MAX_EXECUTION_TIME", "scripting.max_execution_time", .float⟩,
  ⟨"EDITOR_SCRIPT_ENABLE_PRINT", "scripting.enable_print", .bool⟩,
  ⟨"EDITOR_LOG_LEVEL", "logging.level", .text⟩]

/-- The value that an environment gives to an override: nothing where the variable is not set,
a fault where its text cannot be read. -/
def Override.value? (o : Override) (env : Environment) : Option (Except Fault Value) :=
  (env.get? o.name).map o.kind.read

/-- What became of the data, what was said about it, and the fault that stopped the work. -/
structure Overridden where
  data : Value
  records : List Record
  fault : Option Fault

def Override.refusal (o : Override) (fault : Fault) : Record :=
  ⟨.error, .loader,
    fault.text?.map (s!"Invalid value for {o.name}: {·}. Using previous value.")⟩

def Override.notice (o : Override) : Record :=
  ⟨.debug, .loader, s!"Applied env var {o.name} to {o.path}"⟩

def Override.apply (o : Override) (env : Environment) (data : Value) : Overridden :=
  match o.value? env with
  | none => ⟨data, [], none⟩
  | some (.error fault) => ⟨data, [o.refusal fault], none⟩
  | some (.ok v) =>
    let done := v.write (KeyPath.ofText o.path) data
    ⟨done.data, if done.fault.isNone then [o.notice] else [], done.fault⟩

/-- Overrides applied in turn, up to the first that cannot be put in its place. -/
def Override.applyAll (env : Environment) : List Override → Value → Overridden
  | [], data => ⟨data, [], none⟩
  | o :: rest, data =>
    let first := o.apply env data
    match first.fault with
    | some _ => first
    | none =>
      let others := applyAll env rest first.data
      { others with records := first.records ++ others.records }

end OptionHost
