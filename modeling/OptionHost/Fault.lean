import OptionHost.Issue

/-!
# Faults

Everything that can go wrong, by cause. A fault has a class, which callers tell apart, and a
text, unless a value that the text would quote has none. Where a fault was raised on account of
another one, the other is kept as its cause.
-/

namespace OptionHost

/-- The stages in the life of an option store. -/
inductive Lifecycle where
  | uninitialized
  | ready
  | closed
  deriving DecidableEq, Repr, Inhabited

def Lifecycle.name : Lifecycle → String
  | .uninitialized => "uninitialized"
  | .ready => "ready"
  | .closed => "closed"

/-- Why the options cannot be read or written. -/
inductive HostStateCause where
  /-- A read or write while the store is not ready. -/
  | notReady (stage : Lifecycle) (option : Value)
  | reopened
  | detached (option : String)
  /-- The store holds a value that is not of the option's type. -/
  | inconsistent (option held expected : String)
  /-- A call of an accessor whose evaluation is over. -/
  | abandoned (accessor : String)
  | stated (message option stage : Value)
  deriving Inhabited

namespace HostStateCause

def message? : HostStateCause → Option String
  | .notReady stage _ => "Option store is " ++ stage.name
  | .reopened => "Option store has been closed and cannot be re-initialized"
  | .detached _ => "Option bridge is detached from the host store"
  | .inconsistent option held expected =>
    s!"Host store returned {held} for option '{option}', expected {expected}"
  | .abandoned accessor => s!"{accessor}() called after its script evaluation ended"
  | .stated message _ _ => message.plain?

def option : HostStateCause → Value
  | .notReady _ option => option
  | .reopened => .null
  | .detached option => option
  | .inconsistent option _ _ => option
  | .abandoned _ => .null
  | .stated _ option _ => option

def state : HostStateCause → Value
  | .notReady stage _ => stage.name
  | .reopened => Lifecycle.closed.name
  | .detached _ => "detached"
  | .inconsistent .. => "inconsistent"
  | .abandoned _ => "abandoned"
  | .stated _ _ state => state

end HostStateCause

/-- Why a value of the right type is refused. -/
inductive ValueCause where
  | emptyClasses (names : List Value)
  | noClasses
  | unknownDefaultClass (name : Value) (classes : List Value)
  | unknownClass (name : Value) (classes : List Value)
  | invalidOption (option : Value) (value : Value)
  | reservedNames (names : List String)
  | unknownEngine (engine : Value)
  | notRegistered
  | notBoolean (text : String)
  | notInteger (base : Nat) (text : String)
  | tooManyDigits (count : Nat)
  /-- An integer of too many digits was to be written. -/
  | notWritable
  | notFloat (text : String)
  | notCompliant (suffix : String)
  | stated (message : Value)
  deriving Inhabited

/-- The longest part of a refused text that a message about an integer quotes. -/
def quotedLimit : Nat := 200

namespace ValueCause

def message? : ValueCause → Option String
  | .emptyClasses names =>
    (Value.list names).shown?.map ("break_at classes without characters: " ++ ·)
  | .noClasses => "break_at_classes must define at least one class"
  | .unknownDefaultClass name classes => do
    return s!"Default break-at class {← name.shown?} is not one of {← (Value.list classes).shown?}"
  | .unknownClass name classes => do
    return s!"break_at {← name.shown?} is not one of {← (Value.list classes).shown?}"
  | .invalidOption option value => do
    return s!"Invalid value for option '{← option.plain?}': {← value.shown?}"
  | .reservedNames names => "Script globals may not use reserved names: " ++ shownTexts names
  | .unknownEngine engine => engine.shown?.map ("Unknown script engine: " ++ ·)
  | .notRegistered => "list.remove(x): x not in list"
  | .notBoolean text => "not a boolean: " ++ shownText text
  | .notInteger base text =>
    s!"invalid literal for int() with base {base}: " ++
      String.ofList ((Text.quoted text.toList).take quotedLimit)
  | .tooManyDigits count =>
    s!"Exceeds the limit ({digitLimit} digits) for integer string conversion: value has " ++
      s!"{count} digits; use sys.set_int_max_str_digits() to increase the limit"
  | .notWritable =>
    s!"Exceeds the limit ({digitLimit} digits) for integer string conversion; " ++
      "use sys.set_int_max_str_digits() to increase the limit"
  | .notFloat text => "could not convert string to float: " ++ shownText text
  | .notCompliant suffix => "Out of range float values are not JSON compliant" ++ suffix
  | .stated message => message.plain?

end ValueCause

/-- Names in a row, the last one behind "and". -/
def conjunction : List String → String
  | [] => ""
  | [s] => s!"'{s}'"
  | [s, t] => s!"'{s}' and '{t}'"
  | names =>
    let rec tail : List String → String
      | [] => ""
      | [s] => s!"and '{s}'"
      | s :: rest => s!"'{s}', " ++ tail rest
    tail names

/-- Why an operation does not apply to values of the given types or number. -/
inductive TypeCause where
  | missingArguments (callee : String) (names : List String)
  | surplusArguments (callee : String) (required accepted given : Nat)
  | unexpectedKeyword (callee : String) (keyword : String)
  | repeatedArgument (callee : String) (name : String)
  | keywordsNotText
  | notEncodable (typeName : String)
  | notEncodableKey (typeName : String)
  | notDecodable (typeName : String)
  | notConvertible
  | notKey (typeName : String)
  | notOrdered (left right : String)
  /-- A value that a whole number cannot be a bound of. -/
  | notBounded (typeName : String)
  | noMembership (typeName : String)
  | noItemAssignment (typeName : String)
  | sequenceIndex (container key : String)
  | textIndex (key : String)
  | notIterable (typeName : String)
  | stated (message : String)
  deriving DecidableEq, Repr, Inhabited

namespace TypeCause

def plural (count : Nat) (noun : String) : String := if count == 1 then noun else noun ++ "s"

def message : TypeCause → String
  | .missingArguments callee names =>
    s!"{callee}() missing {names.length} required positional " ++
      plural names.length "argument" ++ ": " ++ conjunction names
  | .surplusArguments callee required accepted given =>
    let takes :=
      if required == accepted then toString accepted else s!"from {required} to {accepted}"
    s!"{callee}() takes {takes} positional " ++
      (if required == accepted then plural accepted "argument" else "arguments") ++
      s!" but {given} " ++ (if given == 1 then "was" else "were") ++ " given"
  | .unexpectedKeyword callee keyword =>
    s!"{callee}() got an unexpected keyword argument '{keyword}'"
  | .repeatedArgument callee name => s!"{callee}() got multiple values for argument '{name}'"
  | .keywordsNotText => "keywords must be strings"
  | .notEncodable typeName => s!"Object of type {typeName} is not JSON serializable"
  | .notEncodableKey typeName =>
    s!"keys must be str, int, float, bool or None, not {typeName}"
  | .notDecodable typeName =>
    s!"the JSON object must be str, bytes or bytearray, not {typeName}"
  | .notConvertible => "Cannot convert Opaque to Monty value"
  | .notKey typeName => s!"unhashable type: '{typeName}'"
  | .notOrdered left right =>
    s!"'<' not supported between instances of '{left}' and '{right}'"
  | .notBounded typeName => s!"'<=' not supported between instances of '{typeName}' and 'int'"
  | .noMembership typeName => s!"argument of type '{typeName}' is not iterable"
  | .noItemAssignment typeName => s!"'{typeName}' object does not support item assignment"
  | .sequenceIndex container key =>
    s!"{container} indices must be integers or slices, not {key}"
  | .textIndex key => s!"string indices must be integers, not '{key}'"
  | .notIterable typeName => s!"'{typeName}' object is not iterable"
  | .stated message => message

end TypeCause

/-- Why a script as a whole could not be evaluated. -/
inductive ScriptCause where
  | asyncOnly (engine : Value)
  | runnerClosed
  | stated (message : String)
  deriving Inhabited

def ScriptCause.message? : ScriptCause → Option String
  | .asyncOnly engine => engine.shown?.map (s!"Engine {·} only supports evaluate_async()")
  | .runnerClosed => "Script runtime has been closed"
  | .stated message => message

/-- How a script failed while it ran. -/
inductive FailureCause where
  /-- The interpreter, or the host on its behalf, reported a failure. -/
  | reported (text : String)
  /-- The interpreter came to a halt that is neither a call nor an end. -/
  | unexpectedProgress
  | stated (message : String)
  deriving DecidableEq, Repr, Inhabited

def FailureCause.message : FailureCause → String
  | .reported text => "Script execution failed: " ++ text
  | .unexpectedProgress =>
    "Unexpected Monty progress type: " ++
      "<class 'pydantic_monty.fake_monty.<locals>.MontyFutureSnapshot'>"
  | .stated message => message

/-- How a script came to be out of time. -/
inductive TimeoutCause where
  | limitReached
  | stated (message : String)
  deriving DecidableEq, Repr, Inhabited

inductive Fault where
  | option (message : String)
  /-- A setter was given a value outside the option's domain. -/
  | rejected (option value reason : Value)
  | hostState (cause : HostStateCause)
  | script (cause : ScriptCause)
  | malformed (message : String) (line column : Value)
  | failed (cause : FailureCause)
  | timedOut (cause : TimeoutCause) (limit : Value)
  | unknownKey (key : Value)
  | wrongValue (cause : ValueCause)
  | wrongType (cause : TypeCause)
  /-- JSON text that cannot be read, and where it goes wrong. -/
  | badJson (problem : String) (line column position : Nat)
  /-- Octets that are not text in the expected encoding. -/
  | undecodable (message : String)
  | directory (path : String)
  | unknownAttribute (typeName member : String)
  | indexOutOfRange
  | invalid (title : String) (issues : List Issue)
  /-- A fault of a class that the library only passes on. -/
  | foreign (className message : String)
  deriving Inhabited

namespace Fault

def className : Fault → String
  | .option _ => "OptionError"
  | .rejected .. => "ValidationError"
  | .hostState _ => "HostStateError"
  | .script _ => "ScriptError"
  | .malformed .. => "ScriptSyntaxError"
  | .failed _ => "ScriptExecutionError"
  | .timedOut .. => "ScriptTimeoutError"
  | .unknownKey _ => "KeyError"
  | .wrongValue _ => "ValueError"
  | .wrongType _ => "TypeError"
  | .badJson .. => "JSONDecodeError"
  | .undecodable _ => "UnicodeDecodeError"
  | .directory _ => "IsADirectoryError"
  | .unknownAttribute .. => "AttributeError"
  | .indexOutOfRange => "IndexError"
  | .invalid .. => "ValidationError"
  | .foreign className _ => className

def rejectionText? (option value reason : Value) : Option String := do
  let text ← (ValueCause.invalidOption option value).message?
  if reason.isTrue then return s!"{text} ({← reason.plain?})" else return text

/-- What a fault says; of an unknown key, the key. -/
def message? : Fault → Option String
  | .option message => message
  | .rejected name value reason => rejectionText? name value reason
  | .hostState cause => cause.message?
  | .script cause => cause.message?
  | .malformed message _ _ => message
  | .failed cause => cause.message
  | .timedOut .limitReached limit =>
    limit.plain?.map fun limit => s!"Script execution timed out after {limit} seconds"
  | .timedOut (.stated message) _ => message
  | .unknownKey key => key.plain?
  | .wrongValue cause => cause.message?
  | .wrongType cause => cause.message
  | .badJson problem line column position =>
    s!"{problem}: line {line} column {column} (char {position})"
  | .undecodable message => message
  | .directory path => "[Errno 21] Is a directory: " ++ shownText path
  | .unknownAttribute typeName member => s!"'{typeName}' object has no attribute '{member}'"
  | .indexOutOfRange => "list assignment index out of range"
  | .invalid title issues => s!"{issues.length} validation errors for {title}"
  | .foreign _ message => message

/-- The text of a fault where another message quotes it: an unknown key keeps its quotes. -/
def text? : Fault → Option String
  | .unknownKey key => key.shown?
  | fault => fault.message?

theorem text?_unknownKey {key : Value} (long : key.isWritable = false) :
    (unknownKey key).text? = none :=
  if_neg (by simp [long])

/-- The refusal to write an integer of too many digits. -/
def unwritable : Fault := .wrongValue .notWritable

/-- A fault whose message is written as it is raised: where that cannot be done, the refusal to
write it is raised in its place. -/
def formed (f : Fault) : Fault := if f.message?.isSome then f else unwritable

/-- Whether a fault concerns the reading or writing of an option. -/
def isOptionError : Fault → Bool
  | .option _ | .rejected .. | .hostState _ => true
  | _ => false

/-- Whether a fault concerns the evaluation of a script. -/
def isScriptError : Fault → Bool
  | .script _ | .malformed .. | .failed _ | .timedOut .. => true
  | _ => false

/-- Whether a fault says that a value is wrong, encodings and texts included. -/
def isWrongValue : Fault → Bool
  | .wrongValue _ | .badJson .. | .undecodable _ | .invalid .. => true
  | .foreign className _ =>
    ["UnicodeError", "UnicodeDecodeError", "UnicodeEncodeError", "JSONDecodeError"].contains
      className
  | _ => false

theorem isOptionError_iff (f : Fault) :
    f.isOptionError = true ↔
      (∃ m, f = .option m) ∨ (∃ o v r, f = .rejected o v r) ∨ ∃ c, f = .hostState c := by
  cases f <;> simp [isOptionError]

/-- The fault of a named class that carries one message. -/
def ofClass (className message : String) : Fault :=
  match className with
  | "OptionError" => .option message
  | "ValidationError" => .rejected "wrap" message .null
  | "HostStateError" => .hostState (.stated message "wrap" Lifecycle.closed.name)
  | "ScriptError" => .script (.stated message)
  | "ScriptSyntaxError" => .malformed message .null .null
  | "ScriptExecutionError" => .failed (.stated message)
  | "ScriptTimeoutError" =>
    .timedOut (.stated message) (.float (.ofScientific false 5 (-1)))
  | "KeyError" => .unknownKey message
  | "ValueError" => .wrongValue (.stated message)
  | "TypeError" => .wrongType (.stated message)
  | _ => .foreign className message

/-- The required and optional arguments of the classes that take more than one. -/
def arguments? : String → Option (List String × List String)
  | "ValidationError" => some (["option", "value"], ["reason"])
  | "HostStateError" => some (["message"], ["option", "state"])
  | "ScriptSyntaxError" => some (["message"], ["line", "column"])
  | "ScriptExecutionError" => some (["message"], ["stack_trace"])
  | "ScriptTimeoutError" => some (["message", "timeout_seconds"], [])
  | _ => none

/-- What is wrong with the number of arguments given to a class, if anything. -/
def arityFault? (className : String) (required optionals : List String) (given : Nat) :
    Option TypeCause :=
  let callee := className ++ ".__init__"
  if given < required.length then some (.missingArguments callee (required.drop given))
  else if required.length + optionals.length < given then
    some (.surplusArguments callee (required.length + 1)
      (required.length + optionals.length + 1) (given + 1))
  else none

/-- The text of several arguments, where a class takes any number. -/
def argumentsText? : List Value → Option String
  | [] => ""
  | [v] => v.plain?
  | vs => (Value.tuple vs).shown?

/-- The fault of a class that takes any number of arguments, if they have a text. -/
def ofArguments? (className : String) (given : List Value) : Option Fault :=
  (argumentsText? given).map fun text =>
    match className with
    | "OptionError" => .option text
    | "ScriptError" => .script (.stated text)
    | _ => ofClass className text

/-- A fault made from the arguments of its class, and then written. -/
def make (className : String) (given : List Value) : Except Fault Fault :=
  match arguments? className with
  | none =>
    match ofArguments? className given with
    | some fault => .ok fault
    | none => .error unwritable
  | some (required, optionals) =>
    match arityFault? className required optionals given.length with
    | some cause => .error (.wrongType cause)
    | none =>
      let first := given.headD .null
      let second := given.getD 1 .null
      let third := given.getD 2 .null
      let made : Option Fault :=
        match className with
        | "ValidationError" => some (.rejected first second third)
        | "HostStateError" => some (.hostState (.stated first second third))
        | "ScriptSyntaxError" => first.plain?.map (.malformed · second third)
        | "ScriptExecutionError" => first.plain?.map fun text => .failed (.stated text)
        | _ => first.plain?.map fun text => .timedOut (.stated text) second
      match made with
      | some fault => if fault.message?.isSome then .ok fault else .error unwritable
      | none => .error unwritable

end Fault

/-- A fault together with the fault that led to it. -/
structure Raised where
  fault : Fault
  cause : Option Fault
  deriving Inhabited

instance : Coe Fault Raised := ⟨fun fault => ⟨fault, none⟩⟩

namespace Raised

def text? (r : Raised) : Option String := r.fault.text?

/-- The same fault, raised again on account of another one. -/
def because (r : Raised) (cause : Fault) : Raised := { r with cause := some cause }

end Raised

/-- What a call ends with: a value, or a fault. -/
abbrev Outcome := Except Raised Value

end OptionHost
