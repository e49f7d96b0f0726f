import OptionHost.Settings.Basic
import OptionHost.Store.Basic

/-!
# Initial option values

The values that a store is built with come in two parts, those of a window and those that all
windows share. Both are read strictly: nothing is converted and no other key is taken.
-/

namespace OptionHost

structure WindowOptions where
  wrap : Bool
  lineBreak : Bool
  deriving DecidableEq, Repr, Inhabited

structure SharedOptions where
  breakAt : String
  deriving DecidableEq, Repr, Inhabited

namespace WindowOptions

def title : String := "WindowLocalOptions"

def read : Reader WindowOptions
  | .dict entries =>
    let wrap := Reader.field entries "wrap" true Reader.exactBool
    let lineBreak := Reader.field entries "line_break" false Reader.exactBool
    let issues := wrap.issues ++ lineBreak.issues ++
      Reader.unknownKeys ["wrap", "line_break"] entries
    match wrap, lineBreak, issues with
    | .ok w, .ok l, [] => .ok ⟨w, l⟩
    | _, _, issues => .error issues
  | _ => .refuse (.notModel title)

def toValue (o : WindowOptions) : Value :=
  .dict [(.text "wrap", .bool o.wrap), (.text "line_break", .bool o.lineBreak)]

end WindowOptions

namespace SharedOptions

def title : String := "WindowGlobalOptions"

def read : Reader SharedOptions
  | .dict entries =>
    let breakAt := Reader.field entries "break_at" "ascii" Reader.exactText
    let issues := breakAt.issues ++ Reader.unknownKeys ["break_at"] entries
    match breakAt, issues with
    | .ok b, [] => .ok ⟨b⟩
    | _, issues => .error issues
  | _ => .refuse (.notModel title)

def toValue (o : SharedOptions) : Value := .dict [(.text "break_at", .text o.breakAt)]

end SharedOptions

def OptionValues.ofOptions (window : WindowOptions) (shared : SharedOptions) : OptionValues :=
  ⟨.bool window.wrap, .bool window.lineBreak, .text shared.breakAt⟩

/-- An attempt to assign an attribute of validated options. -/
def frozenFault (title name : String) : Fault := .invalid title [⟨.frozen, [.text name]⟩]

end OptionHost
