import OptionHost.Bridge
import OptionHost.Json.Call

/-!
# Names that scripts see

The table of names that an evaluation starts with: values, and functions of the host.
-/

namespace OptionHost

/-- The functions that a host can give to a script. -/
inductive HostFunction where
  | echo
  | constant (v : Value)
  /-- Gives an object that no interpreter can take over. -/
  | object
  | fails (r : Raised)
  /-- Never ends; a function of this kind has to be awaited. -/
  | forever
  | accessor (evaluation : Nat) (a : Accessor)
  | jsonEncode
  | jsonDecode
  | print
  deriving Inhabited

inductive Binding where
  | value (v : Value)
  /-- A function; an awaited one does nothing until the interpreter awaits it. -/
  | function (f : HostFunction) (awaited : Bool)
  deriving Inhabited

def Binding.isFunction : Binding → Bool
  | .function .. => true
  | .value _ => false

abbrev Table := List (String × Binding)

namespace Table

def put (name : String) (b : Binding) : Table → Table
  | [] => [(name, b)]
  | (n, old) :: rest => if n == name then (n, b) :: rest else (n, old) :: put name b rest

def names (t : Table) : List String := t.map Prod.fst

/-- A table with the entries of another one put into it in turn. -/
def update (t other : Table) : Table := other.foldl (fun t e => put e.1 e.2 t) t

theorem lookup_put (name other : String) (b : Binding) (t : Table) :
    (put name b t).lookup other = if other == name then some b else t.lookup other := by
  induction t with
  | nil => cases h : other == name <;> simp [put, List.lookup_cons, h]
  | cons e rest ih =>
    obtain ⟨n, old⟩ := e
    by_cases hn : n = name
    · subst hn
      cases h : other == n <;> simp [put, List.lookup_cons, h]
    · cases h : other == n
      · simp [put, List.lookup_cons, hn, h, ih]
      · have ho : (other == name) = false := by
          rw [beq_iff_eq.1 h]
          simpa using hn
        simp [put, List.lookup_cons, hn, h, ho]

end Table

/-- The name under which a runner keeps its bridge. -/
def bridgeName : String := "__editor_options__"

/-- The names that scripts may not be given anything under. -/
def reservedNames : List String := bridgeName :: Accessor.all.map Accessor.name

/-- The reserved names among those of a table, sorted. -/
def Table.collisions (t : Table) : List String :=
  sortedNames (reservedNames.filter fun n => t.names.contains n)

def accessorTable (evaluation : Nat) : Table :=
  Accessor.all.map fun a => (a.name, .function (.accessor evaluation a) false)

end OptionHost
