import OptionHost.Layer.File
import OptionHost.Layer.Override
import OptionHost.Text.Blank

/-!
# Environment files

A file of variables, one in a line. A value stands bare, up to a comment, or in quotes, where
it may go on over several lines. A name without an equals sign is not set. Lines that have no
such form are passed over. Variables of the process win over those of the file, and one of them
keeps the file from being read.
-/

namespace OptionHost.EnvironmentFile

/-- Blanks within a line. -/
def isLineBlank (c : Char) : Bool := Text.isBlank c && c != '\n'

def dropLineBlanks (s : List Char) : List Char := s.dropWhile isLineBlank

def dropLine (s : List Char) : List Char := (s.dropWhile (· != '\n')).drop 1

def isKeyChar (c : Char) : Bool := c != '=' && c != '#' && !Text.isBlank c

/-- A quoted text up to its end and what follows it. A backslash and the character behind it
stay together, so that a quote behind a backslash never ends the text. -/
def quoted? (quote : Char) : List Char → Option (List Char × List Char)
  | [] => none
  | '\\' :: c :: rest => (quoted? quote rest).map fun p => ('\\' :: c :: p.1, p.2)
  | c :: rest =>
    if c == quote then some ([], rest)
    else (quoted? quote rest).map fun p => (c :: p.1, p.2)

/-- What a character behind a backslash stands for in a quoted text. -/
def escape? (quote c : Char) : Option Char :=
  if c == '\\' || c == '\x27' then some c
  else if quote == '\x27' then none
  else
    match c with
    | '\x22' => some c
    | 'a' => some '\x07'
    | 'b' => some '\x08'
    | 'f' => some '\x0c'
    | 'n' => some '\n'
    | 'r' => some '\r'
    | 't' => some '\t'
    | 'v' => some '\x0b'
    | _ => none

/-- A quoted text with its escapes replaced; a backslash before any other character stays. -/
def unescape (quote : Char) : List Char → List Char
  | '\\' :: c :: rest =>
    match escape? quote c with
    | some d => d :: unescape quote rest
    | none => '\\' :: unescape quote (c :: rest)
  | c :: rest => c :: unescape quote rest
  | [] => []
termination_by s => s.length

/-- A bare value up to a comment, which begins behind a blank. -/
def beforeComment : (afterBlank : Bool) → List Char → List Char
  | _, [] => []
  | afterBlank, c :: rest =>
    if afterBlank && c == '#' then [] else c :: beforeComment (Text.isBlank c) rest

def bareValue (line : List Char) : List Char :=
  Text.trim Text.isBlank (beforeComment false line)

/-- What stands behind an equals sign, a value, and what follows it. A bare value begins at the
sign, so that a comment right behind the blanks that follow the sign leaves it empty. -/
def value? (s : List Char) : Option (List Char × List Char) :=
  match dropLineBlanks s with
  | [] => some ([], [])
  | c :: rest =>
    if c == '\x27' || c == '\x22' then (quoted? c rest).map fun p => (unescape c p.1, p.2)
    else some (bareValue (s.takeWhile (· != '\n')), s.dropWhile (· != '\n'))

def key? (s : List Char) : Option (List Char × List Char) :=
  match s with
  | '\x27' :: rest =>
    let name := rest.takeWhile (· != '\x27')
    match rest.dropWhile (· != '\x27') with
    | _ :: rest => if name.isEmpty then none else some (name, rest)
    | [] => none
  | s =>
    let name := s.takeWhile isKeyChar
    if name.isEmpty then none else some (name, s.dropWhile isKeyChar)

def dropExport (s : List Char) : List Char :=
  let word := ['e', 'x', 'p', 'o', 'r', 't']
  if word.isPrefixOf s && (s[6]?).any isLineBlank then dropLineBlanks (s.drop 6) else s

/-- The end of a line, with an optional comment before it. -/
def lineEnd? (s : List Char) : Option (List Char) :=
  match dropLineBlanks s with
  | [] => some []
  | '\n' :: rest => some rest
  | '#' :: rest => some (dropLine rest)
  | _ => none

/-- What stands in a line: a variable with its value, if it has one, or nothing. -/
structure Line where
  binding : Option (List Char × Option (List Char))
  rest : List Char

/-- The value behind a name, if an equals sign follows, and the rest of the line. -/
def assignment? (s : List Char) : Option (Option (List Char) × List Char) :=
  match dropLineBlanks s with
  | '=' :: rest => (value? rest).map fun p => (some p.1, p.2)
  | s => some (none, s)

/-- The line that begins here. Where it has no proper form, reading goes on in the line that
follows the place of the trouble. -/
def line (s : List Char) : Line :=
  let s := dropExport s
  match s with
  | '#' :: rest => ⟨none, dropLine rest⟩
  | s =>
    match key? s with
    | none => ⟨none, dropLine s⟩
    | some (name, behind) =>
      match assignment? behind with
      | none => ⟨none, dropLine behind⟩
      | some (value, behind) =>
        match lineEnd? behind with
        | none => ⟨none, dropLine behind⟩
        | some rest => ⟨some (name, value), rest⟩

def bindings : (fuel : Nat) → List Char → List (String × Option (List Char))
  | 0, _ => []
  | fuel + 1, s =>
    match s.dropWhile Text.isBlank with
    | [] => []
    | s =>
      let l := line s
      match l.binding with
      | some (name, value) => (String.ofList name, value) :: bindings fuel l.rest
      | none => bindings fuel l.rest

/-- A reference to a variable that begins here: its name, the text to take where it is not
set, and what follows. -/
def reference? (s : List Char) : Option (String × List Char × List Char) :=
  match s with
  | '$' :: '\x7b' :: rest =>
    let isInName (c : Char) : Bool := c != '\x7d' && c != ':'
    let name := String.ofList (rest.takeWhile isInName)
    match rest.dropWhile isInName with
    | '\x7d' :: rest => some (name, [], rest)
    | ':' :: '-' :: rest =>
      match rest.dropWhile (· != '\x7d') with
      | _ :: behind => some (name, rest.takeWhile (· != '\x7d'), behind)
      | [] => none
    | _ => none
  | _ => none

def expand (lookup : String → Option String) : (fuel : Nat) → List Char → List Char
  | 0, s => s
  | _, [] => []
  | fuel + 1, c :: rest =>
    match reference? (c :: rest) with
    | none => c :: expand lookup fuel rest
    | some (name, otherwise, rest) =>
      ((lookup name).map String.toList).getD otherwise ++ expand lookup fuel rest

/-- The variables of a file, not yet set, each as its last line has it. -/
abbrev Bindings := List (String × Option String)

def Bindings.put (name : String) (value : Option String) : Bindings → Bindings
  | [] => [(name, value)]
  | (n, v) :: rest =>
    if n == name then (n, value) :: rest else (n, v) :: Bindings.put name value rest

/-- One more variable. References take the process first, then the lines before; a name that
the lines before leave without a value is empty. -/
def resolve (env : Environment) (known : Bindings) (b : String × Option (List Char)) :
    Bindings :=
  let lookup (name : String) : Option String :=
    match env.get? name with
    | some text => some text
    | none => (known.lookup name).map fun text => text.getD ""
  known.put b.1 (b.2.map fun text => String.ofList (expand lookup (text.length + 1) text))

def resolveAll (env : Environment) (lines : List (String × Option (List Char))) : Bindings :=
  lines.foldl (resolve env) []

def refusal? (name value : String) : Option Fault :=
  if name.toList.contains '\x00' || value.toList.contains '\x00' then
    some (.wrongValue (.stated "embedded null byte"))
  else if name.toList.contains '=' then
    some (.wrongValue (.stated "illegal environment variable name"))
  else none

/-- The environment with the variables of a file that it does not have yet. -/
def extend (env : Environment) : Bindings → Except Fault Environment
  | [] => .ok env
  | (name, value) :: rest =>
    match value with
    | some value =>
      if (env.get? name).isSome then extend env rest
      else
        match refusal? name value with
        | some fault => .error fault
        | none => extend (env ++ [(name, value)]) rest
    | none => extend env rest

/-- The environment with what the text of a file adds to it. -/
def apply (text : List Char) (env : Environment) : Except Fault Environment :=
  extend env (resolveAll env (bindings (text.length + 1) text))

def path : String := ".env"

/-- A text without the byte order mark that it may begin with. -/
def dropMark : List Char → List Char
  | '\ufeff' :: rest => rest
  | s => s

/-- A letter without its case; the long s is an s. -/
def foldCase (c : Char) : Char := if c == '\u017f' then 's' else c.toLower

/-- The variable that keeps the file from being read. -/
def switch : String := "PYTHON_DOTENV_DISABLED"

/-- Whether the file is not to be read. -/
def isDisabled (env : Environment) : Bool :=
  (env.get? switch).any fun text =>
    ["1", "true", "t", "yes", "y"].contains (String.ofList (text.toList.map foldCase))

/-- The environment with what the file adds to it, if there is one and it may be read. -/
def load (files : Files) (env : Environment) : Except Fault Environment := do
  if isDisabled env then return env
  match files.get? path with
  | some (.octets content) => apply (dropMark (← readText content)) env
  | _ => return env

end OptionHost.EnvironmentFile
