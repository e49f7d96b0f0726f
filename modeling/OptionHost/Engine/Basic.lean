import OptionHost.Host
import OptionHost.Text.Digit

/-!
# Running scripts

What the engines have in common: how a script's functions are called, how far a script came,
and what is read from the message of a syntax error.
-/

namespace OptionHost

structure Site where
  run : Nat
  config : RunnerConfig
  respond : Response

/-- How far a script came: to its end, or to a halt that only giving up resolves. -/
inductive Progress where
  | ended (outcome : Outcome)
  | stalled (rest : Behaviour)
  deriving Inhabited

/-- The digits of the first number that a message gives behind the word "line". -/
def statedLine? : List Char → Option (List Nat)
  | [] => none
  | c :: rest =>
    let digits :=
      if "line ".toList.isPrefixOf (c :: rest) then
        ((rest.drop 4).map Text.digitValue?).takeWhile Option.isSome
      else []
    if digits.isEmpty then statedLine? rest else some (digits.filterMap id)

/-- The fault of a script that an interpreter cannot read. The line is the one that the message
states; a number too long to be read is a fault of its own. -/
def unreadable (interpreterClass message : String) : Raised :=
  let cause := some (Fault.foreign interpreterClass message)
  match statedLine? message.toList with
  | none => ⟨.malformed message .null .null, cause⟩
  | some digits =>
    if digitLimit < digits.length then (Fault.wrongValue (.tooManyDigits digits.length) : Fault)
    else ⟨.malformed message (.int (Text.digitsValue 10 digits)) .null, cause⟩

/-- The fault of a script that ran out of time, which says how long it had. -/
def outOfTime (config : RunnerConfig) : Raised :=
  let fault := Fault.timedOut .limitReached config.limit
  if fault.message?.isSome then ⟨fault, some (.foreign "TimeoutError" "")⟩ else Fault.unwritable

def outOfTimeRecord (speaker : Speaker) (config : RunnerConfig) : Record :=
  ⟨.error, speaker, (Fault.timedOut .limitReached config.limit).message?⟩

/-- The failure of a call by a name that stands for no function. -/
def undefinedName (name : String) : Raised :=
  (Fault.foreign "NameError" s!"name '{name}' is not defined" : Fault)

def failureRecord (speaker : Speaker) (r : Raised) : Record :=
  ⟨.error, speaker, r.text?.map fun text => (FailureCause.reported text).message⟩

namespace Site

/-- Notes printed text, and writes it to the console where that is asked for. -/
def output (site : Site) (speaker : Speaker) (text : String) : Act Unit := do
  Act.say ⟨.info, speaker, "Script output: " ++ text⟩
  if site.config.echoing.isTrue then
    Act.record (.printed site.run ("[SCRIPT] " ++ text ++ "\n"))

def invoke (site : Site) (f : HostFunction) (args : List Value) (kwargs : Entries) :
    Act Value := do
  if kwargs.any fun e => !e.1.isText then Act.fail (.wrongType .keywordsNotText)
  match f with
  | .echo => return .list [.list args, .dict kwargs]
  | .constant v => return v
  | .object => return .object "Opaque"
  | .fails r => throw r
  | .forever => return .null
  | .accessor evaluation a => Act.accessWithin site.respond evaluation a args kwargs
  | .jsonEncode => Act.ofExcept (Json.encodeCall args kwargs)
  | .jsonDecode => Act.ofExcept (Json.decodeCall args kwargs)
  | .print =>
    match args.mapM Value.plain? with
    | some texts =>
      site.output .starlark (String.intercalate " " texts)
      return .null
    | none => Act.fail .unwritable

/-- A call by an interpreter that awaits nothing: of an awaited function it only gets the
promise. -/
def invokePlainly (site : Site) (f : HostFunction) (awaited : Bool) (args : List Value)
    (kwargs : Entries) : Act Value :=
  if awaited then return .object "coroutine" else site.invoke f args kwargs

/-- A call of a host function with its result noted. -/
def callNoted (site : Site) (name : String) (f : HostFunction) (awaited : Bool)
    (args : List Value) (kwargs : Entries) : Act Outcome := do
  let outcome ← Act.attempt (site.invokePlainly f awaited args kwargs)
  Act.record (.called site.run name outcome)
  return outcome

end Site

end OptionHost
