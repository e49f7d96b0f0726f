import OptionHost.Json.Printer
import OptionHost.Json.Reader
import OptionHost.Signature
import OptionHost.Text.Utf8

/-!
# JSON functions of scripts

Encoding and decoding as scripts call them, with the named arguments that choose a style.
-/

namespace OptionHost.Json

def encodeSignature : Signature :=
  ⟨"dumps", ["obj"], ["skipkeys", "ensure_ascii", "check_circular", "allow_nan", "cls", "indent",
    "separators", "default", "sort_keys"], true⟩

def decodeSignature : Signature :=
  ⟨"loads", ["s"], ["cls", "object_hook", "parse_float", "parse_int", "parse_constant",
    "object_pairs_hook"], true⟩

/-- The indent of one level: a number of blanks, or the text itself. -/
def indentOf : Value → Except Fault (Option (List Char))
  | .null => .ok none
  | .text s => .ok (some s.toList)
  | v =>
    match v.integer? with
    | some n => .ok (some (List.replicate n.toNat ' '))
    | none =>
      .error (.wrongType (.stated s!"can't multiply sequence by non-int of type '{v.typeName}'"))

def separatorParts : Value → Except Fault (List Value)
  | .list vs => .ok vs
  | .tuple vs => .ok vs
  | .set vs => .ok vs
  | .dict entries => .ok (Entries.keys entries)
  | .text s => .ok (s.toList.map fun c => .text (String.singleton c))
  | .bytes b => .ok (b.map fun o => .int o.toNat)
  | v => .error (.wrongType (.stated s!"cannot unpack non-iterable {v.typeName} object"))

/-- The separator of items and the one behind keys. -/
def separatorsOf (v : Value) : Except Fault (List Char × List Char) := do
  match ← separatorParts v with
  | [.text items, .text keys] => return (items.toList, keys.toList)
  | [item, key] =>
    let (place, wrong) := if key.isText then ("6", item) else ("5", key)
    throw (.wrongType (.stated
      s!"make_encoder() argument {place} must be str, not {wrong.typeName}"))
  | parts =>
    if parts.length < 2 then
      throw (.wrongValue (.stated
        s!"not enough values to unpack (expected 2, got {parts.length})"))
    else throw (.wrongValue (.stated "too many values to unpack (expected 2)"))

/-- The style that the named arguments of a call ask for. -/
def styleOf (named : List (String × Value)) : Except Fault Style := do
  let get (name : String) (otherwise : Value) : Value := (named.lookup name).getD otherwise
  let indent ← indentOf (get "indent" .null)
  let (items, keys) ←
    match get "separators" .null with
    | .null => pure (if indent.isSome then [','] else [',', ' '], [':', ' '])
    | v => separatorsOf v
  return ⟨items, keys, indent, (get "sort_keys" (.bool false)).isTrue,
    (get "ensure_ascii" (.bool true)).isTrue, (get "allow_nan" (.bool true)).isTrue,
    (get "skipkeys" (.bool false)).isTrue⟩

def notCallable (v : Value) : Fault :=
  .wrongType (.stated s!"'{v.typeName}' object is not callable")

/-- Names that neither the function nor the writer or reader behind it knows. -/
def rejectUnknown (s : Signature) (maker : String) (known : List String)
    (named : List (String × Value)) : Except Fault Unit :=
  match named.find? fun b => !(s.positional ++ s.named ++ known).contains b.1 with
  | some (name, _) => .error (.wrongType (.unexpectedKeyword maker name))
  | none => .ok ()

def encodeCall (args : List Value) (kwargs : Entries) : Except Fault Value := do
  let named ← encodeSignature.bind args kwargs
  match named.lookup "cls" with
  | none | some .null => pure ()
  | some v => throw (notCallable v)
  rejectUnknown encodeSignature "JSONEncoder.__init__" [] named
  let style ← styleOf named
  let text ← write style ((named.lookup "obj").getD .null)
  return .text text

def decodedText : Value → Except Fault (List Char)
  | .text s => .ok s.toList
  | .bytes b =>
    match Text.decodeUtf8? b with
    | some s => .ok (if s.head? == some '\ufeff' then s.drop 1 else s)
    | none => .error (.undecodable (Text.utf8Trouble b))
  | v => .error (.wrongType (.notDecodable v.typeName))

def decodeCall (args : List Value) (kwargs : Entries) : Except Fault Value := do
  let named ← decodeSignature.bind args kwargs
  let text ← decodedText ((named.lookup "s").getD .null)
  match named.lookup "cls" with
  | none | some .null => pure ()
  | some v => throw (notCallable v)
  rejectUnknown decodeSignature "JSONDecoder.__init__" ["strict"] named
  read text

end OptionHost.Json
