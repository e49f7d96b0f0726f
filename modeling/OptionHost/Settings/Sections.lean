import OptionHost.Host
import OptionHost.Settings.Initial

/-!
# Sections of the configuration

The settings of a host in three sections: options with the policy for break-at classes, the
running of scripts, and logging. Unknown keys are refused everywhere.
-/

namespace OptionHost

/-- Initial option values and the break-at classes of a host. -/
structure OptionSettings where
  wrap : Bool
  lineBreak : Bool
  breakAt : String
  classes : List (String × String)
  deriving DecidableEq, Repr, Inhabited

namespace OptionSettings

def title : String := "OptionsConfig"

def keys : List String := ["wrap", "line_break", "break_at", "break_at_classes"]

def builtinClasses : List (String × String) :=
  [("ascii", " \t!@*-+;:,./?"), ("whitespace", " \t")]

def initial : OptionSettings := ⟨true, false, "ascii", builtinClasses⟩

def shownClasses (names : List String) : List Value := (sortedNames names).map .text

/-- The rule that joins the fields: there are classes, all of them have characters, and the
selected one is among them. -/
def rule? (o : OptionSettings) : Option ValueCause :=
  let hollow := (o.classes.filter fun c => c.2 == "").map Prod.fst
  if o.classes.isEmpty then some .noClasses
  else if !hollow.isEmpty then some (.emptyClasses (shownClasses hollow))
  else if !(o.classes.map Prod.fst).contains o.breakAt then
    some (.unknownClass (.text o.breakAt) (shownClasses (o.classes.map Prod.fst)))
  else none

def read : Reader OptionSettings
  | .dict entries =>
    let wrap := Reader.field entries "wrap" initial.wrap Reader.bool
    let lineBreak := Reader.field entries "line_break" initial.lineBreak Reader.bool
    let breakAt := Reader.field entries "break_at" initial.breakAt Reader.text
    let classes := Reader.field entries "break_at_classes" initial.classes Reader.textDict
    let issues := wrap.issues ++ lineBreak.issues ++ breakAt.issues ++ classes.issues ++
      Reader.unknownKeys keys entries
    match wrap, lineBreak, breakAt, classes, issues with
    | .ok w, .ok l, .ok b, .ok c, [] =>
      let settings : OptionSettings := ⟨w, l, b, c⟩
      match settings.rule? with
      | none => .ok settings
      | some cause => .refuse (.brokenRule (cause.message?.getD ""))
    | _, _, _, _, issues => .error issues
  | _ => .refuse (.notModel title)

def classEntries (o : OptionSettings) : Entries :=
  o.classes.map fun c => (.text c.1, .text c.2)

def toValue (o : OptionSettings) : Value :=
  .dict [(.text "wrap", .bool o.wrap), (.text "line_break", .bool o.lineBreak),
    (.text "break_at", .text o.breakAt), (.text "break_at_classes", .dict o.classEntries)]

end OptionSettings

structure ScriptSettings where
  engine : String
  limit : Binary64
  printing : Bool
  echoing : Bool
  deriving DecidableEq, Repr, Inhabited

namespace ScriptSettings

def title : String := "ScriptingConfig"

def keys : List String := ["engine", "max_execution_time", "enable_print", "enable_debug"]

def initial : ScriptSettings := ⟨"starlark", .ofInt 30, true, false⟩

def read : Reader ScriptSettings
  | .dict entries =>
    let engine :=
      Reader.field entries "engine" initial.engine (Reader.oneOf ["starlark", "monty"])
    let limit := Reader.field entries "max_execution_time" initial.limit Reader.positiveFloat
    let printing := Reader.field entries "enable_print" initial.printing Reader.bool
    let echoing := Reader.field entries "enable_debug" initial.echoing Reader.bool
    let issues := engine.issues ++ limit.issues ++ printing.issues ++ echoing.issues ++
      Reader.unknownKeys keys entries
    match engine, limit, printing, echoing, issues with
    | .ok e, .ok l, .ok p, .ok d, [] => .ok ⟨e, l, p, d⟩
    | _, _, _, _, issues => .error issues
  | _ => .refuse (.notModel title)

def toValue (s : ScriptSettings) : Value :=
  .dict [(.text "engine", .text s.engine), (.text "max_execution_time", .float s.limit),
    (.text "enable_print", .bool s.printing), (.text "enable_debug", .bool s.echoing)]

def toRunnerConfig (s : ScriptSettings) : RunnerConfig :=
  ⟨.text s.engine, .float s.limit, .bool s.printing, .bool s.echoing⟩

end ScriptSettings

structure LogSettings where
  level : String
  deriving DecidableEq, Repr, Inhabited

namespace LogSettings

def title : String := "LoggingConfig"

def initial : LogSettings := ⟨"INFO"⟩

def read : Reader LogSettings
  | .dict entries =>
    let level :=
      Reader.field entries "level" initial.level (Reader.oneOf (Level.all.map Level.name))
    let issues := level.issues ++ Reader.unknownKeys ["level"] entries
    match level, issues with
    | .ok l, [] => .ok ⟨l⟩
    | _, issues => .error issues
  | _ => .refuse (.notModel title)

def toValue (s : LogSettings) : Value := .dict [(.text "level", .text s.level)]

def toLevel (s : LogSettings) : Level := (Level.ofName? s.level).getD .info

end LogSettings

structure Settings where
  options : OptionSettings
  scripting : ScriptSettings
  logging : LogSettings
  deriving DecidableEq, Repr, Inhabited

namespace Settings

def title : String := "AppConfig"

def keys : List String := ["options", "scripting", "logging"]

def initial : Settings := ⟨.initial, .initial, .initial⟩

def readEntries (entries : Entries) : Checked Settings :=
  let options := Reader.field entries "options" initial.options OptionSettings.read
  let scripting := Reader.field entries "scripting" initial.scripting ScriptSettings.read
  let logging := Reader.field entries "logging" initial.logging LogSettings.read
  let issues := options.issues ++ scripting.issues ++ logging.issues ++
    Reader.unknownKeys keys entries
  match options, scripting, logging, issues with
  | .ok o, .ok s, .ok l, [] => .ok ⟨o, s, l⟩
  | _, _, _, issues => .error issues

/-- The settings that a document gives. The keys of the document become names, which have to
be texts. -/
def read : Value → Except Fault Settings
  | .dict entries =>
    if entries.any fun e => !e.1.isText then .error (.wrongType .keywordsNotText)
    else (readEntries entries).mapError (.invalid title)
  | _ => .error (.invalid title [⟨.notModel title, []⟩])

def toValue (s : Settings) : Value :=
  .dict [(.text "options", s.options.toValue), (.text "scripting", s.scripting.toValue),
    (.text "logging", s.logging.toValue)]

/-- The section that a key names, whatever the case of its letters. -/
def sectionOf? : Value → Option String
  | .text name => keys.find? (· == name.toLower)
  | _ => none

/-- The entry of a section among named ones: the one that has the name as it is, or else the
first that has it in other letters. -/
def namedSection? (named : Entries) (name : String) : Option (Value × Value) :=
  match named.named? name with
  | some v => some (.text name, v)
  | none => (named.find? fun e => sectionOf? e.1 == some name).map fun e => (.text name, e.2)

/-- Named entries with the sections under their own names. Other keys stay as they are. -/
def nameSections (named : Entries) : Entries :=
  keys.filterMap (namedSection? named) ++ named.filter fun e => (sectionOf? e.1).isNone

/-- The settings that a named document gives: its sections may be named in letters of any
case. -/
def readNamed : Value → Except Fault Settings
  | .dict named => read (.dict (nameSections named))
  | v => read v

end Settings

end OptionHost
