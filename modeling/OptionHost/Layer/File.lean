import OptionHost.Layer.Merge
import OptionHost.Report
import OptionHost.Text.Utf8
import OptionHost.Yaml.Document

/-!
# Files of a configuration

Each file of a configuration is one of its layers. A file that is missing or malformed, or
whose document is no mapping, is an empty layer, and the journal says so.
-/

namespace OptionHost

inductive File where
  | octets (content : List UInt8)
  /-- A file of which only the value of its document is told. -/
  | document (content : Value)
  | directory
  deriving Inhabited

abbrev Files := List (String × File)

def Files.get? (files : Files) (path : String) : Option File := files.lookup path

/-- Whether something of a name is there, a file or a directory. -/
def Files.contains (files : Files) (path : String) : Bool := (files.get? path).isSome

/-- A text whose lines end in one way, however they are written. -/
def unifyLines : List Char → List Char
  | [] => []
  | '\r' :: rest =>
    match rest with
    | '\n' :: rest => '\n' :: unifyLines rest
    | rest => '\n' :: unifyLines rest
  | c :: rest => c :: unifyLines rest

def readText (content : List UInt8) : Except Fault (List Char) :=
  match Text.decodeUtf8? content with
  | some s => .ok (unifyLines s)
  | none => .error (.undecodable (Text.utf8Trouble content))

namespace Layer

def missing (path : String) : Record :=
  ⟨.info, .documents, path ++ " not found. Using defaults."⟩

def unreadable (path : String) : Record :=
  ⟨.error, .documents, s!"Error parsing {path}: malformed document. Using defaults."⟩

def noMapping (path : String) : Record :=
  ⟨.warning, .documents, path ++ " does not contain a mapping. Ignoring."⟩

def ofDocument (path : String) (content : Value) : Report Entries :=
  match content with
  | .null => return []
  | .dict entries => return entries
  | _ => do
    Report.say (noMapping path)
    return []

def load (files : Files) (path : String) : Report Entries :=
  match files.get? path with
  | none => do
    Report.say (missing path)
    return []
  | some .directory => Report.fail (.directory path)
  | some (.document content) => ofDocument path content
  | some (.octets content) => do
    match Yaml.readDocument (← Report.ofExcept (readText content)) with
    | .error .malformed =>
      Report.say (unreadable path)
      return []
    | .error (.fault fault) => Report.fail fault
    | .ok v => ofDocument path v

/-- The layers of several files, merged from the lowest. -/
def loadAll (files : Files) (paths : List String) : Report Entries := do
  return Entries.mergeAll (← paths.mapM (load files))

end Layer

end OptionHost
