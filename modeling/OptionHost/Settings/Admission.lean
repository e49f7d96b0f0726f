import OptionHost.Settings.Sections

/-!
# From settings to a ready store

A store is built from option settings whether they were checked before or not: the option
values are read strictly, the class table is copied, and the store is started at once.
-/

namespace OptionHost

structure RawOptions where
  wrap : Value
  lineBreak : Value
  breakAt : Value
  classes : Value
  deriving Inhabited

namespace RawOptions

def ofEntries (entries : Entries) : RawOptions :=
  let get (name : String) (otherwise : Value) := (entries.named? name).getD otherwise
  ⟨get "wrap" (.bool true), get "line_break" (.bool false), get "break_at" (.text "ascii"),
    get "break_at_classes" (.dict builtinClasses)⟩

end RawOptions

def OptionSettings.toRaw (o : OptionSettings) : RawOptions :=
  ⟨.bool o.wrap, .bool o.lineBreak, .text o.breakAt, .dict o.classEntries⟩

/-- The two parts of an item that is to be an entry. -/
def entryOf (position : Nat) (item : Value) : Except Fault (Value × Value) :=
  let parts : Option (List Value) :=
    match item with
    | .list vs => some vs
    | .tuple vs => some vs
    | .text s => some (s.toList.map fun c => .text (String.singleton c))
    | .bytes b => some (b.map fun o => .int o.toNat)
    | .dict entries => some (Entries.keys entries)
    | _ => none
  match parts with
  | none =>
    .error (.wrongType (.stated
      s!"cannot convert dictionary update sequence element #{position} to a sequence"))
  | some [k, v] =>
    match k.unkeyed? with
    | some typeName => .error (.wrongType (.notKey typeName))
    | none => .ok (k, v)
  | some vs =>
    .error (.wrongValue (.stated
      (s!"dictionary update sequence element #{position} has length {vs.length}; " ++
        "2 is required")))

/-- A class table copied from any value; without one the built-in classes are taken. -/
def classTable : Value → Except Fault Entries
  | .null => .ok builtinClasses
  | .dict entries => .ok entries
  | v =>
    let items : Option (List Value) :=
      match v with
      | .list vs => some vs
      | .tuple vs => some vs
      | .text s => some (s.toList.map fun c => .text (String.singleton c))
      | .bytes b => some (b.map fun o => .int o.toNat)
      | _ => none
    match items with
    | none => .error (.wrongType (.notIterable v.typeName))
    | some vs => do
      let pairs ← vs.zipIdx.mapM fun p => entryOf p.2 p.1
      return Entries.ofPairs pairs

namespace RawOptions

def window (o : RawOptions) : Except Fault WindowOptions :=
  (WindowOptions.read (.dict [(.text "wrap", o.wrap), (.text "line_break", o.lineBreak)]))
    |>.mapError (.invalid WindowOptions.title)

def shared (o : RawOptions) : Except Fault SharedOptions :=
  (SharedOptions.read (.dict [(.text "break_at", o.breakAt)]))
    |>.mapError (.invalid SharedOptions.title)

/-- The store of the settings, not ready yet. -/
def build (o : RawOptions) : Except Fault Store := do
  let window ← o.window
  let shared ← o.shared
  Store.create (.ofOptions window shared) (← classTable o.classes)

def toStore (o : RawOptions) : Except Fault Store := do (← o.build).start

end RawOptions

end OptionHost
