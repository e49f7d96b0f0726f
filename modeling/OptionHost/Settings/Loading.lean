import OptionHost.Json.Printer
import OptionHost.Layer.EnvironmentFile
import OptionHost.Settings.Sections

/-!
# Loading the settings

Settings come from four places, each of which wins over those before it: the built-in values,
two files merged as layers, and the environment. They are checked twice: the files before the
environment is looked at, and the whole behind it. Which files are layers is kept by the loader
while the first check lasts; every check builds on the layers that the loader names then.
-/

namespace OptionHost

/-- What all loads share: the files that are layers of whatever settings are built now, and
what was written so far. -/
structure Loader where
  paths : List String
  records : List Record
  deriving Inhabited

def Loader.start : Loader := ⟨[], []⟩

/-- A piece of loading. A fault keeps what became of the loader. -/
abbrev Loading := ExceptT Fault (StateM Loader)

namespace Loading

def ofReport {α : Type} (r : Report α) : Loading α :=
  fun l => (r.outcome, { l with records := l.records ++ r.records })

def ofExcept {α : Type} (e : Except Fault α) : Loading α := ofReport (Report.ofExcept e)

def say (r : Record) : Loading Unit := ofReport (Report.say r)

def paths : Loading (List String) := do return (← get).paths

/-- A piece of loading during which some files are layers, and no longer, whether it fails or
not. -/
def within {α : Type} (paths : List String) (act : Loading α) : Loading α :=
  fun l =>
    let (outcome, after) := act { l with paths := paths }
    (outcome, { after with paths := l.paths })

theorem paths_within {α : Type} (paths : List String) (act : Loading α) (l : Loader) :
    (within paths act l).2.paths = l.paths := rfl

/-- A piece of loading whose fault becomes part of its result. -/
def attempt {α : Type} (act : Loading α) : Loading (Except Fault α) :=
  tryCatch (do return .ok (← act)) fun fault => pure (.error fault)

end Loading

namespace Settings

/-- The settings that the layers of the loader give, with further entries on top, whose
sections may be named in letters of any case. -/
def build (files : Files) (named : Entries) : Loading Settings := do
  let layers ← Loading.ofReport (Layer.loadAll files (← Loading.paths))
  Loading.ofExcept (Settings.read (.dict (Entries.merge layers (nameSections named))))

def builtRecord (paths : List String) : Record :=
  ⟨.info, .loader,
    "Built config from field defaults + YAML files: " ++ shownTexts paths⟩

def finalRecord (text : String) : Record := ⟨.info, .loader, "Final configuration: " ++ text⟩

def validRecord : Record := ⟨.info, .loader, "Configuration validated successfully."⟩

def invalidRecord (fault : Fault) : Record :=
  ⟨.error, .loader, fault.message?.map ("Configuration validation failed: " ++ ·)⟩

/-- The data of settings with the overrides of an environment. -/
def override (env : Environment) (s : Settings) : Report Value :=
  let done := Override.applyAll env Override.table s.toValue
  ⟨done.records,
    match done.fault with
    | some fault => .error fault
    | none => .ok done.data⟩

def entriesOf : Value → Entries
  | .dict entries => entries
  | _ => []

/-- The second check: the settings that overridden data give. -/
def validate (files : Files) (data : Value) : Loading Settings := do
  match ← Loading.attempt (build files (entriesOf data)) with
  | .ok s =>
    Loading.say validRecord
    return s
  | .error (.invalid title issues) =>
    Loading.say (invalidRecord (.invalid title issues))
    throw (.invalid title issues)
  | .error fault => throw fault

/-- Where the settings of a host are looked for. -/
structure Sources where
  files : Files
  environment : Environment
  paths : List String
  withEnvironmentFile : Bool

def Sources.present (s : Sources) : List String := s.paths.filter s.files.contains

/-- The environment with the environment file, if that counts. -/
def Sources.extended (s : Sources) : Except Fault Environment :=
  if s.withEnvironmentFile then EnvironmentFile.load s.files s.environment
  else .ok s.environment

/-- The names of the two files where no others are given. -/
def usualPaths : List String := ["defaults.yaml", "config.yaml"]

def load (sources : Sources) : Loading Settings := do
  let base ← Loading.within sources.present (build sources.files [])
  Loading.say (builtRecord sources.present)
  let env ← Loading.ofExcept sources.extended
  let data ← Loading.ofReport (base.override env)
  let text ← Loading.ofExcept (Json.write (Json.Style.indented 2) data)
  Loading.say (finalRecord text)
  validate sources.files data

end Settings

end OptionHost
