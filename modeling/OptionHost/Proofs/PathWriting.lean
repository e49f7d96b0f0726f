import OptionHost.Proofs.LayerPaths

/-!
# Writing along a path

A path leads to one place in nested mappings. What is written there is found there, with all that it
holds, and every other place has what it had; the mappings on the way are made where they are
missing. Where something that is no mapping stands in the way, the writing is refused and leaves
nothing behind.
-/

namespace OptionHost

/-! ## Paths -/

namespace KeyPath

variable {path other : KeyPath} {key : String}

/-- The names of a path as keys. -/
def keys (path : KeyPath) : List Value := path.map .text

/-- Two paths that part: behind what they share they go on under different keys. -/
inductive Apart : KeyPath → KeyPath → Prop
  | fork {key key' : String} (differ : key ≠ key') (rest rest' : KeyPath) :
    Apart (key :: rest) (key' :: rest')
  | cons (key : String) {rest rest' : KeyPath} (apart : Apart rest rest') :
    Apart (key :: rest) (key :: rest')

theorem Apart.symm (apart : Apart path other) : Apart other path := by
  induction apart with
  | fork differ rest rest' => exact .fork differ.symm rest' rest
  | cons key _ ih => exact .cons key ih

/-- Two paths part unless one of them is the beginning of the other. -/
theorem apart_of_not_prefix (before : ¬path <+: other) (behind : ¬other <+: path) :
    Apart path other := by
  induction path generalizing other with
  | nil => exact absurd List.nil_prefix before
  | cons key rest ih =>
    cases other with
    | nil => exact absurd List.nil_prefix behind
    | cons key' rest' =>
      by_cases same : key = key'
      · subst same
        rw [List.cons_prefix_cons, and_iff_right rfl] at before behind
        exact .cons key (ih before behind)
      · exact .fork same rest rest'

end KeyPath

namespace Entries

variable {entries : Entries} {key value : Value} {name : String}

theorem put_first {k v : Value} (here : k.same key = true) :
    put key value ((k, v) :: entries) = (k, value) :: entries := if_pos here

theorem put_behind {k v : Value} (elsewhere : ¬k.same key = true) :
    put key value ((k, v) :: entries) = (k, v) :: put key value entries := if_neg elsewhere

/-- What a key is bound to may be put there again. -/
theorem put_of_get? (found : entries.get? key = some value) : put key value entries = entries := by
  induction entries with
  | nil => cases found
  | cons first rest ih =>
    obtain ⟨k, v⟩ := first
    by_cases same : k.same key = true
    · rw [get?, if_pos same] at found
      rw [put_first same, Option.some.inj found]
    · rw [get?, if_neg same] at found
      rw [put_behind same, ih found]

theorem put_put (itself : key.same key = true) (v w : Value) (entries : Entries) :
    put key w (put key v entries) = put key w entries := by
  induction entries with
  | nil => exact put_first itself
  | cons first rest ih =>
    obtain ⟨k, u⟩ := first
    by_cases same : k.same key = true
    · rw [put_first same, put_first same, put_first same]
    · rw [put_behind same, put_behind same, put_behind same, ih]

theorem named?_put_name (name : String) (value : Value) (entries : Entries) :
    (put (.text name) value entries).named? name = some value := by
  rw [named?_put, if_pos (by simp)]

theorem named?_put_other {other : String} (differ : name ≠ other) (value : Value)
    (entries : Entries) : (put (.text name) value entries).named? other = entries.named? other := by
  rw [named?_put, if_neg (by simpa using differ)]

theorem branch_of_named? (named : entries.named? name = some value) :
    entries.branch name = value := by
  rw [branch, named, Option.getD_some]

theorem branch_put (name : String) (value : Value) (entries : Entries) :
    (put (.text name) value entries).branch name = value :=
  branch_of_named? (named?_put_name name value entries)

theorem branch_put_other {other : String} (differ : name ≠ other) (value : Value)
    (entries : Entries) : (put (.text name) value entries).branch other = entries.branch other := by
  rw [branch, named?_put_other differ, branch]

end Entries

namespace Value

variable {data value : Value} {entries : Entries} {key : String} {path other rest : KeyPath}

/-! ## Reading -/

theorem at?_cons (key : String) (rest : KeyPath) (entries : Entries) :
    (Value.dict entries).at? (key :: rest) = (entries.named? key).bind (at? rest) := by
  rw [at?]
  cases entries.named? key <;> rfl

theorem at?_plain (plain : data.isDict = false) : data.at? (key :: rest) = none := by
  cases data <;> first | rfl | cases plain

theorem at?_eq_reach? (path : KeyPath) (data : Value) : data.at? path = data.reach? path.keys := by
  induction path generalizing data with
  | nil => rfl
  | cons key rest ih =>
    by_cases plain : data.isDict = false
    · rw [at?_plain plain]
      exact (reach?_plain plain).symm
    · obtain ⟨entries, rfl⟩ := exists_dict plain
      rw [at?_cons, funext ih]
      rfl

/-- The obstacles on a path of names are found along its beginnings. -/
theorem obstructs_keys_iff : data.Obstructs path.keys ↔
    ∃ before after w, path = before ++ after ∧ after ≠ [] ∧ data.at? before = some w ∧
      w.isDict = false := by
  constructor
  · rintro ⟨_, _, w, split, some, reached, plain⟩
    obtain ⟨before, after, rfl, rfl, rfl⟩ := List.map_eq_append_iff.mp split
    exact ⟨before, after, w, rfl, by simpa using some,
      (at?_eq_reach? before data).trans reached, plain⟩
  · rintro ⟨before, after, w, rfl, some, there, plain⟩
    exact ⟨before.keys, after.keys, w, List.map_append, by simpa [KeyPath.keys] using some,
      (at?_eq_reach? before data).symm.trans there, plain⟩

/-- A path is obstructed behind a key as it is where the key leads. -/
theorem obstructs_branch : (entries.branch key).Obstructs rest.keys ↔
    (Value.dict entries).Obstructs (KeyPath.keys (key :: rest)) := by
  have whole : (Value.dict entries).Obstructs (KeyPath.keys (key :: rest)) ↔
      ∃ u, entries.named? key = some u ∧ u.Obstructs rest.keys := obstructs_cons
  rw [whole, Entries.branch]
  cases entries.named? key with
  | some u => simp
  | none =>
    -- a new mapping obstructs nothing
    have free : ¬(Value.dict []).Obstructs rest.keys := by
      cases rest with
      | nil => exact not_obstructs_nil
      | cons next others =>
        rintro obstructs
        obtain ⟨_, bound, _⟩ := obstructs_cons.mp obstructs
        cases bound
    simpa using free

theorem at?_branch (some : rest ≠ []) :
    (entries.branch key).at? rest = (Value.dict entries).at? (key :: rest) := by
  rw [at?_cons, Entries.branch]
  cases entries.named? key with
  | some u => rfl
  | none =>
    obtain ⟨next, others, rfl⟩ := List.exists_cons_of_ne_nil some
    rfl

/-! ## Refusals -/

theorem write_dict (value : Value) (key : String) (rest : KeyPath) (entries : Entries) :
    value.write (key :: rest) (.dict entries) =
      ⟨.dict (Entries.put key (value.write rest (entries.branch key)).data entries),
        (value.write rest (entries.branch key)).fault⟩ := rfl

theorem write_plain (plain : data.isDict = false) (value : Value) :
    value.write (key :: rest) data = ⟨data, some (.wrongType (data.blockage key rest))⟩ := by
  cases data <;> first | rfl | cases plain

/-- A value can be written where nothing obstructs the path. -/
theorem write_fault_eq_none_iff (value : Value) (path : KeyPath) (data : Value) :
    (value.write path data).fault = none ↔ ¬data.Obstructs path.keys := by
  induction path generalizing data with
  | nil => exact iff_of_true rfl not_obstructs_nil
  | cons key rest ih =>
    by_cases plain : data.isDict = false
    · rw [write_plain plain]
      exact iff_of_false (by simp) (not_not_intro (obstructs_plain plain))
    · obtain ⟨entries, rfl⟩ := exists_dict plain
      rw [write_dict, ih, obstructs_branch]

theorem wrongType_of_write {fault : Fault} (refused : (value.write path data).fault = some fault) :
    ∃ cause, fault = .wrongType cause := by
  induction path generalizing data with
  | nil => cases refused
  | cons key rest ih =>
    by_cases plain : data.isDict = false
    · rw [write_plain plain] at refused
      exact ⟨_, (Option.some.inj refused).symm⟩
    · obtain ⟨entries, rfl⟩ := exists_dict plain
      exact ih refused

/-- Where a path is obstructed, all its mappings up to there exist, so none is made. -/
theorem write_data_of_obstructs (obstructs : data.Obstructs path.keys) (value : Value) :
    (value.write path data).data = data := by
  induction path generalizing data with
  | nil => exact absurd obstructs not_obstructs_nil
  | cons key rest ih =>
    by_cases plain : data.isDict = false
    · rw [write_plain plain]
    · obtain ⟨entries, rfl⟩ := exists_dict plain
      obtain ⟨u, bound, within⟩ := obstructs_cons.mp obstructs
      rw [write_dict, Entries.branch_of_named? bound, ih within, Entries.put_of_get? bound]

/-! ## What is where afterwards -/

theorem at?_write_append (free : ¬data.Obstructs path.keys) (value : Value) (rest : KeyPath) :
    (value.write path data).data.at? (path ++ rest) = value.at? rest := by
  induction path generalizing data with
  | nil => rfl
  | cons key others ih =>
    by_cases plain : data.isDict = false
    · exact absurd (obstructs_plain plain) free
    · obtain ⟨entries, rfl⟩ := exists_dict plain
      rw [← obstructs_branch] at free
      rw [write_dict, List.cons_append, at?_cons, Entries.named?_put_name, Option.bind_some,
        ih free]

theorem at?_write (free : ¬data.Obstructs path.keys) (value : Value) :
    (value.write path data).data.at? path = some value := by
  have there := at?_write_append free value []
  rwa [List.append_nil] at there

/-- A place apart from the path has what it had, whether the writing is refused or not. -/
theorem at?_write_of_apart (apart : path.Apart other) (value data : Value) :
    (value.write path data).data.at? other = data.at? other := by
  induction apart generalizing data with
  | @fork key key' differ rest rest' =>
    by_cases plain : data.isDict = false
    · rw [write_plain plain]
    · obtain ⟨entries, rfl⟩ := exists_dict plain
      rw [write_dict, at?_cons, at?_cons, Entries.named?_put_other differ]
  | @cons key rest rest' apart ih =>
    by_cases plain : data.isDict = false
    · rw [write_plain plain]
    · obtain ⟨entries, rfl⟩ := exists_dict plain
      have some : rest' ≠ [] := by
        rintro rfl
        cases apart
      rw [write_dict, at?_cons, Entries.named?_put_name, Option.bind_some, ih, at?_branch some]

theorem at?_write_prefix {before after : KeyPath} (free : ¬data.Obstructs (before ++ after).keys)
    (some : after ≠ []) (value : Value) :
    ∃ entries : Entries, (value.write (before ++ after) data).data.at? before =
      .some (.dict entries) := by
  induction before generalizing data with
  | nil =>
    obtain ⟨key, rest, rfl⟩ := List.exists_cons_of_ne_nil some
    by_cases plain : data.isDict = false
    · exact absurd (obstructs_plain plain) free
    · obtain ⟨entries, rfl⟩ := exists_dict plain
      exact ⟨_, rfl⟩
  | cons key rest ih =>
    by_cases plain : data.isDict = false
    · exact absurd (obstructs_plain plain) free
    · obtain ⟨entries, rfl⟩ := exists_dict plain
      rw [List.cons_append, ← obstructs_branch] at free
      obtain ⟨inner, there⟩ := ih free
      exact ⟨inner, by rw [List.cons_append, write_dict, at?_cons, Entries.named?_put_name,
        Option.bind_some, there]⟩

/-! ## Writing twice -/

/-- What was written first leaves no trace of itself. -/
theorem write_write (value later : Value) (path : KeyPath) (data : Value) :
    later.write path (value.write path data).data = later.write path data := by
  induction path generalizing data with
  | nil => rfl
  | cons key rest ih =>
    by_cases plain : data.isDict = false
    · rw [write_plain plain, write_plain plain]
    · obtain ⟨entries, rfl⟩ := exists_dict plain
      rw [write_dict, write_dict, write_dict, Entries.branch_put, ih, Entries.put_put (by simp)]

/-- To write what is there already changes nothing. -/
theorem write_of_at? (there : data.at? path = some value) :
    value.write path data = ⟨data, none⟩ := by
  induction path generalizing data with
  | nil =>
    cases there
    rfl
  | cons key rest ih =>
    by_cases plain : data.isDict = false
    · rw [at?_plain plain] at there
      cases there
    · obtain ⟨entries, rfl⟩ := exists_dict plain
      rw [at?_cons] at there
      obtain ⟨u, named, within⟩ := Option.bind_eq_some_iff.mp there
      rw [write_dict, Entries.branch_of_named? named, ih within, Entries.put_of_get? named]

end Value

/-! ## The laws of writing -/

/-- What becomes of data when a value is written at a path of them. -/
structure Lawful (value : Value) (path : KeyPath) (data : Value) (done : Written) : Prop where
  /-- The writing is refused exactly where something that is no mapping stands in the way, -/
  refused_iff : done.fault.isSome = true ↔
    ∃ before after w, path = before ++ after ∧ after ≠ [] ∧ data.at? before = some w ∧
      w.isDict = false
  /-- always for the type of what stands there, -/
  mistyped : ∀ fault, done.fault = some fault → ∃ cause, fault = .wrongType cause
  /-- and then nothing has changed. -/
  untouched : done.fault.isSome = true → done.data = data
  /-- Otherwise the value is at the path, with all that it holds behind it, -/
  within : done.fault = none → ∀ rest, done.data.at? (path ++ rest) = value.at? rest
  /-- every place that is neither on the way nor behind it has what it had, -/
  elsewhere : done.fault = none → ∀ other, ¬path <+: other → ¬other <+: path →
    done.data.at? other = data.at? other
  /-- everything on the way is a mapping, -/
  mappings : done.fault = none → ∀ before after, path = before ++ after → after ≠ [] →
    ∃ entries : Entries, done.data.at? before = some (.dict entries)
  /-- and another value written there is all that is left. -/
  replaced : done.fault = none →
    ∀ later : Value, later.write path done.data = later.write path data
  /-- A value that is there already changes nothing. -/
  present : data.at? path = some value → done = ⟨data, none⟩

namespace Value

theorem write_lawful (value : Value) (path : KeyPath) (data : Value) :
    Lawful value path data (value.write path data) := by
  have free := (write_fault_eq_none_iff value path data).mp
  have refused : (value.write path data).fault.isSome = true ↔ data.Obstructs path.keys := by
    rw [← not_iff_not, ← write_fault_eq_none_iff value path data, Option.not_isSome_iff_eq_none]
  constructor
  case refused_iff => exact refused.trans obstructs_keys_iff
  case mistyped => exact fun _ => wrongType_of_write
  case untouched => exact fun stopped => write_data_of_obstructs (refused.mp stopped) value
  case within => exact fun fine => at?_write_append (free fine) value
  case elsewhere =>
    intro _ other before behind
    exact at?_write_of_apart (KeyPath.apart_of_not_prefix before behind) value data
  case mappings =>
    rintro fine before after rfl some
    exact at?_write_prefix (free fine) some value
  case replaced => exact fun _ later => write_write value later path data
  case present => exact write_of_at?

end Value

end OptionHost
