/-!
# The journal

Records of what the host did, each with a level and the part of the host that speaks. A
journal kept at a level leaves out what lies below it.
-/

namespace OptionHost

inductive Level where
  | debug
  | info
  | warning
  | error
  | critical
  deriving DecidableEq, Repr, Inhabited

namespace Level

def all : List Level := [.debug, .info, .warning, .error, .critical]

def name : Level → String
  | .debug => "DEBUG"
  | .info => "INFO"
  | .warning => "WARNING"
  | .error => "ERROR"
  | .critical => "CRITICAL"

def ofName? (name : String) : Option Level := all.find? fun level => level.name == name

def number : Level → Nat
  | .debug => 10
  | .info => 20
  | .warning => 30
  | .error => 40
  | .critical => 50

/-- Whether a journal kept at the first level takes a record of the second. -/
def admits (threshold level : Level) : Bool := threshold.number ≤ level.number

theorem ofName?_name (level : Level) : ofName? level.name = some level := by
  cases level <;> rfl

end Level

/-- The parts of the host that write to the journal. -/
inductive Speaker where
  | store
  | bridge
  | runner
  | starlark
  | monty
  | loader
  | documents
  deriving DecidableEq, Repr, Inhabited

structure Record where
  level : Level
  speaker : Speaker
  /-- Without a text there is nothing to be written. -/
  text : Option String
  deriving DecidableEq, Repr, Inhabited

end OptionHost
