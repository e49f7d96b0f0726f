import OptionHost.Value.Equality

/-!
# Entries of a mapping

Look-up and update by key. An update keeps the place and the first spelling of a key that is
already bound and appends a new one.
-/

namespace OptionHost.Entries

def get? (key : Value) : Entries → Option Value
  | [] => none
  | (k, v) :: rest => if k.same key then some v else get? key rest

def contains (key : Value) (entries : Entries) : Bool := (entries.get? key).isSome

def put (key value : Value) : Entries → Entries
  | [] => [(key, value)]
  | (k, v) :: rest => if k.same key then (k, value) :: rest else (k, v) :: put key value rest

def keys (entries : Entries) : List Value := entries.map Prod.fst

/-- The mapping that a list of pairs writes, later pairs of one key replacing earlier ones. -/
def ofPairs (pairs : List (Value × Value)) : Entries :=
  pairs.foldl (fun entries (k, v) => entries.put k v) []

/-- The update of a mapping by the entries of another. -/
def update (entries other : Entries) : Entries :=
  other.foldl (fun entries (k, v) => entries.put k v) entries

/-- The members of a list, each once, in order of their first appearance. -/
def distinct (items : List Value) : List Value :=
  (ofPairs (items.map fun v => (v, .null))).keys

/-- Look-up by a name. -/
def named? (name : String) (entries : Entries) : Option Value := entries.get? (.text name)

theorem get?_put_text (s t : String) (value : Value) (entries : Entries) :
    (put (.text s) value entries).get? (.text t) =
      if s == t then some value else entries.get? (.text t) := by
  induction entries with
  | nil => simp [put, get?]
  | cons e rest ih =>
    obtain ⟨k, v⟩ := e
    simp only [put]
    cases k with
    | text u =>
      by_cases hu : u = s
      · by_cases ht : s = t <;> simp_all [get?]
      · by_cases ht : s = t <;> by_cases hut : u = t <;> simp_all [get?]
    | _ => simp_all [get?, Value.same, Value.integer?]

end OptionHost.Entries
