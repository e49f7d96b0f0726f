import OptionHost.Proofs.Completion
import OptionHost.Proofs.Register
import OptionHost.Proofs.SettingsReading
import OptionHost.Proofs.Sorting
import OptionHost.Settings.Admission

/-!
# The ways for a value to be admitted

What an option may be is decided in four places: where a section of the settings is read, where the
initial values are read and the store is started, where the store is written, and where a bridge is.
All of them follow one policy, which depends on the table of classes alone. Values that were read
leniently have become strict by the time a store is made of them.
-/

namespace OptionHost

open Act

theorem Value.isBool_iff {v : Value} : v.isBool = true ↔ ∃ b, v = .bool b := by
  cases v <;> simp [isBool]

theorem Value.isText_iff {v : Value} : v.isText = true ↔ ∃ s, v = .text s := by
  cases v <;> simp [isText]

/-! ## The policy -/

/-- What the policy allows an option to be: a truth value, or the name of a class that has a
pattern. -/
def OptionName.Takes (classes : Entries) (v : Value) : OptionName → Prop
  | .breakAt => v.isText = true ∧
      ∃ chars pattern, classes.get? v = some chars ∧ Pattern.ofClass chars = .ok pattern
  | _ => v.isBool = true

/-- No class of the table is without characters. -/
def Entries.Full (classes : Entries) : Prop :=
  Value.sorted ((classes.filter fun e => !e.2.isTrue).map Prod.fst) = .ok []

/-- The ready store that initial values make over a table of classes. The values are read strictly,
in their two parts. -/
def OptionValues.launch (values : OptionValues) (classes : Entries) : Except Fault Store := do
  let window ← (WindowOptions.read (.dict
    [(.text "wrap", values.wrap), (.text "line_break", values.lineBreak)])).mapError
      (.invalid WindowOptions.title)
  let shared ← (SharedOptions.read (.dict [(.text "break_at", values.breakAt)])).mapError
    (.invalid SharedOptions.title)
  let store ← Store.create (.ofOptions window shared) classes
  store.start

/-- The initial values that settings describe. -/
def OptionSettings.values (o : OptionSettings) : OptionValues :=
  .ofOptions ⟨o.wrap, o.lineBreak⟩ ⟨o.breakAt⟩

theorem OptionSettings.toStore_toRaw (o : OptionSettings) :
    o.toRaw.toStore = o.values.launch o.classEntries := rfl

theorem WindowOptions.read_eq_ok {x y : Value} {window : WindowOptions} :
    read (.dict [(.text "wrap", x), (.text "line_break", y)]) = .ok window ↔
      x = .bool window.wrap ∧ y = .bool window.lineBreak := by
  constructor
  · intro e
    cases x with
    | bool w =>
      cases y with
      | bool l =>
        cases e
        exact ⟨rfl, rfl⟩
      | _ => cases e
    | _ => cases y <;> cases e
  · rintro ⟨rfl, rfl⟩
    rfl

theorem SharedOptions.read_eq_ok {x : Value} {shared : SharedOptions} :
    read (.dict [(.text "break_at", x)]) = .ok shared ↔ x = .text shared.breakAt := by
  constructor
  · intro e
    cases x with
    | text b =>
      cases e
      rfl
    | _ => cases e
  · rintro rfl
    rfl

namespace Store

variable {s : Store} {classes : Entries} {values : OptionValues} {pattern : Pattern}
  {o : OptionName} {v : Value}

theorem create_eq_ok_iff {initial : OptionValues} :
    create initial classes = .ok s ↔
      classes.Full ∧ s = ⟨initial, classes, .uninitialized, []⟩ := by
  unfold create Entries.Full
  dsimp only
  constructor
  · intro e
    obtain ⟨names, sorted, e⟩ := Except.bind_eq_ok e
    split at e
    next none =>
      cases e
      exact ⟨sorted.trans (congrArg _ (List.isEmpty_iff.mp none)), rfl⟩
    next => cases e
  · rintro ⟨sorted, rfl⟩
    rw [sorted]
    rfl

theorem start_of_selected {initial : OptionValues} {name : String} {chars : Value}
    (selected : initial.breakAt = .text name) (found : classes.get? (.text name) = some chars)
    (compiled : Pattern.ofClass chars = .ok pattern) :
    start ⟨initial, classes, .uninitialized, []⟩ =
      .ok ⟨initial, classes, .ready initial pattern, []⟩ := by
  have known : classOf ⟨initial, classes, .uninitialized, []⟩ initial.breakAt =
      .ok (some chars) := by
    rw [selected, ← found]
    rfl
  unfold start
  dsimp only
  rw [known]
  change (Pattern.ofClass chars >>= _) = _
  rw [compiled]
  rfl

end Store

namespace OptionName

variable {classes : Entries} {o : OptionName} {v : Value}

theorem Takes.typed (takes : o.Takes classes v) : o.typed v = true := by
  cases o with
  | breakAt => exact takes.1
  | wrap => exact takes
  | lineBreak => exact takes

end OptionName

namespace OptionValues

variable {s : Store} {classes : Entries} {values : OptionValues}

theorem takes_iff : (∀ o : OptionName, o.Takes classes (values.get o)) ↔
    values.Typed ∧ ∃ chars pattern, classes.get? values.breakAt = some chars ∧
      Pattern.ofClass chars = .ok pattern := by
  constructor
  · intro takes
    obtain ⟨isText, selected⟩ := takes .breakAt
    refine ⟨⟨?_, ?_, ?_⟩, selected⟩
    · exact Value.isBool_iff.mp (takes .wrap)
    · exact Value.isBool_iff.mp (takes .lineBreak)
    · exact Value.isText_iff.mp isText
  · rintro ⟨typed, selected⟩ o
    cases o with
    | wrap => exact Value.isBool_iff.mpr typed.wrap
    | lineBreak => exact Value.isBool_iff.mpr typed.lineBreak
    | breakAt => exact ⟨Value.isText_iff.mpr typed.breakAt, selected⟩

theorem launch_eq_ok_iff : values.launch classes = .ok s ↔
    classes.Full ∧ values.Typed ∧ ∃ chars pattern, classes.get? values.breakAt = some chars ∧
      Pattern.ofClass chars = .ok pattern ∧ s = ⟨values, classes, .ready values pattern, []⟩ := by
  constructor
  · intro e
    obtain ⟨window, own, e⟩ := Except.bind_eq_ok e
    obtain ⟨shared, common, e⟩ := Except.bind_eq_ok e
    obtain ⟨store, created, e⟩ := Except.bind_eq_ok e
    obtain ⟨wrap, lineBreak⟩ := WindowOptions.read_eq_ok.mp (Except.mapError_eq_ok.mp own)
    have breakAt := SharedOptions.read_eq_ok.mp (Except.mapError_eq_ok.mp common)
    have same : values = .ofOptions window shared := by
      rw [ofOptions, ← wrap, ← lineBreak, ← breakAt]
    obtain ⟨full, rfl⟩ := Store.create_eq_ok_iff.mp created
    refine ⟨full, ⟨⟨_, wrap⟩, ⟨_, lineBreak⟩, ⟨_, breakAt⟩⟩, ?_⟩
    rw [same]
    obtain ⟨ready, -⟩ | ⟨-, chars, pattern, found, compiled, rfl⟩ := Store.start_cases e
    · cases ready
    · exact ⟨chars, pattern, found, compiled, rfl⟩
  · rintro ⟨full, ⟨⟨w, wrap⟩, ⟨l, lineBreak⟩, ⟨b, breakAt⟩⟩, chars, pattern, found, compiled, rfl⟩
    -- Values of the right types are those of two models that are read as they stand.
    obtain ⟨x, y, z⟩ := values
    cases wrap
    cases lineBreak
    cases breakAt
    change (Store.create (.ofOptions ⟨w, l⟩ ⟨b⟩) classes >>= Store.start) = _
    rw [Store.create_eq_ok_iff.mpr ⟨full, rfl⟩]
    have selected : (OptionValues.ofOptions ⟨w, l⟩ ⟨b⟩).breakAt = .text b := rfl
    exact Store.start_of_selected selected found compiled

theorem launch_iff : (∃ s, values.launch classes = .ok s) ↔
    classes.Full ∧ ∀ o : OptionName, o.Takes classes (values.get o) := by
  rw [takes_iff]
  constructor
  · rintro ⟨s, e⟩
    obtain ⟨full, typed, chars, pattern, found, compiled, -⟩ := launch_eq_ok_iff.mp e
    exact ⟨full, typed, chars, pattern, found, compiled⟩
  · rintro ⟨full, typed, chars, pattern, found, compiled⟩
    exact ⟨_, launch_eq_ok_iff.mpr ⟨full, typed, chars, pattern, found, compiled, rfl⟩⟩

theorem launch_set_iff (launched : ∃ s, values.launch classes = .ok s) (o : OptionName)
    (v : Value) : (∃ s, (values.set v o).launch classes = .ok s) ↔ o.Takes classes v := by
  obtain ⟨full, others⟩ := launch_iff.mp launched
  rw [launch_iff]
  constructor
  · rintro ⟨-, takes⟩
    simpa [get_set] using takes o
  · intro takes
    refine ⟨full, fun p => ?_⟩
    rw [get_set]
    split
    next same => exact same ▸ takes
    next => exact others p

end OptionValues

/-! ## Settings -/

theorem Entries.get?_texts (table : List (String × String)) (name : String) :
    Entries.get? (.text name) (table.map fun c => (.text c.1, .text c.2)) =
      (table.lookup name).map .text := by
  induction table with
  | nil => rfl
  | cons c rest ih =>
    obtain ⟨s, t⟩ := c
    by_cases same : s = name
    · simp [Entries.get?, same]
    · have other : (name == s) = false := beq_false_of_ne (Ne.symm same)
      rw [List.lookup_cons, other]
      simpa [Entries.get?, same] using ih

namespace OptionSettings

variable {o : OptionSettings}

theorem full_classEntries : o.classEntries.Full ↔ ∀ c ∈ o.classes, c.2 ≠ "" := by
  have hollow : (o.classEntries.filter fun e => !e.2.isTrue).map Prod.fst =
      ((o.classes.filter fun c => c.2 == "").map Prod.fst).map .text := by
    unfold classEntries
    rw [List.filter_map, List.map_map, List.map_map]
    refine congrArg (List.map _) (List.filter_congr fun c _ => ?_)
    simp [Value.isTrue, bne]
  have empty : (o.classes.filter fun c => c.2 == "") = [] ↔ ∀ c ∈ o.classes, c.2 ≠ "" := by
    simp [List.filter_eq_nil_iff]
  -- The names are sorted before it is asked whether there are any; texts always can be.
  obtain ⟨names, sorted, perm⟩ :=
    Value.sorted_texts ((o.classes.filter fun c => c.2 == "").map Prod.fst)
  unfold Entries.Full
  rw [hollow, sorted, ← empty]
  constructor
  · rintro ⟨⟩
    exact List.map_eq_nil_iff.mp (List.map_eq_nil_iff.mp perm.nil_eq.symm)
  · intro none
    rw [none] at perm
    rw [perm.eq_nil]

theorem rule?_eq_none_iff : o.rule? = none ↔
    (∀ c ∈ o.classes, c.2 ≠ "") ∧ ∃ chars, o.classes.lookup o.breakAt = some chars := by
  constructor
  · intro rule
    obtain ⟨chars, selected, -⟩ := selected_of_rule rule
    refine ⟨fun c member empty => ?_, chars, selected⟩
    have hollow : (o.classes.filter fun c => c.2 == "").map Prod.fst ≠ [] :=
      List.ne_nil_of_mem (List.mem_map_of_mem (List.mem_filter.mpr ⟨member, by simp [empty]⟩))
    have some : o.classes ≠ [] := List.ne_nil_of_mem member
    simp [rule?, some, List.isEmpty_eq_false_iff.mpr hollow] at rule
  · rintro ⟨full, chars, selected⟩
    obtain ⟨before, after, split, -⟩ := List.lookup_eq_some_iff.mp selected
    have hollow : (o.classes.filter fun c => c.2 == "") = [] := by
      simpa [List.filter_eq_nil_iff] using full
    have some : o.classes.isEmpty = false := by simp [split]
    have listed : (o.classes.map Prod.fst).contains o.breakAt = true := by simp [split]
    simp only [rule?, hollow, some, listed]
    rfl

theorem read_toValue_iff (nodup : (o.classes.map Prod.fst).Nodup) :
    (∃ o', read o.toValue = .ok o') ↔ o.rule? = none := by
  constructor
  · rintro ⟨⟨w, l, b, c⟩, e⟩
    obtain ⟨_, ⟨⟩, ⟨⟩, ⟨⟩, ⟨⟩, table, -, rule⟩ := read_ok e
    cases (classes_toValue nodup).symm.trans table
    exact rule
  · intro rule
    exact ⟨o, read_toValue nodup rule⟩

theorem launch_iff : (∃ s, o.values.launch o.classEntries = .ok s) ↔ o.rule? = none := by
  rw [OptionValues.launch_iff, OptionValues.takes_iff, full_classEntries, rule?_eq_none_iff]
  refine and_congr_right fun _ => ?_
  have found : o.classEntries.get? o.values.breakAt = (o.classes.lookup o.breakAt).map .text :=
    Entries.get?_texts o.classes o.breakAt
  rw [found]
  constructor
  · rintro ⟨-, chars, pattern, selected, -⟩
    obtain ⟨text, listed, -⟩ := Option.map_eq_some_iff.mp selected
    exact ⟨text, listed⟩
  · rintro ⟨text, listed⟩
    rw [listed]
    exact ⟨OptionValues.typed_ofOptions _ _, .text text, _, rfl, rfl⟩

end OptionSettings

/-- A ready store that holds what the settings say: the values of the options, the table of classes,
and the pattern of the selected class. -/
structure Store.Embodies (s : Store) (o : OptionSettings) : Prop where
  ready : ∃ chars, o.classes.lookup o.breakAt = some chars ∧
    s.condition = .ready o.values (.ofChars chars.toList)
  table : s.classes = o.classEntries
  names : ∃ names, s.classNames = .ok names ∧ names.Perm (o.classes.map fun c => .text c.1)

/-- Settings that were read, from whatever value, make a store that holds them. -/
theorem OptionSettings.launch_of_read {v : Value} {o : OptionSettings} (e : read v = .ok o) :
    ∃ s, o.toRaw.toStore = .ok s ∧ s.Embodies o := by
  obtain ⟨_, -, -, -, -, -, -, rule⟩ := read_ok e
  obtain ⟨full, chars, selected⟩ := rule?_eq_none_iff.mp rule
  have found : o.classEntries.get? o.values.breakAt = some (.text chars) := by
    rw [classEntries, values, OptionValues.ofOptions, Entries.get?_texts, selected]
    rfl
  have launched : o.values.launch o.classEntries =
      .ok ⟨o.values, o.classEntries, .ready o.values (.ofChars chars.toList), []⟩ :=
    OptionValues.launch_eq_ok_iff.mpr ⟨full_classEntries.mpr full,
      OptionValues.typed_ofOptions _ _, .text chars, _, found, rfl, rfl⟩
  refine ⟨_, (toStore_toRaw o).trans launched, ⟨chars, selected, rfl⟩, rfl, ?_⟩
  obtain ⟨names, sorted, perm⟩ := Value.sorted_texts (o.classes.map Prod.fst)
  have keys : Entries.keys o.classEntries = (o.classes.map Prod.fst).map .text := by
    rw [Entries.keys, classEntries, List.map_map, List.map_map]
    rfl
  rw [← keys] at sorted
  rw [List.map_map] at perm
  exact ⟨names, sorted, perm⟩

/-! ## Writes -/

namespace Store

variable {s t : Store} {classes : Entries} {values : OptionValues} {pattern : Pattern}
  {o : OptionName} {v : Value}

theorem admits_of_takes (ready : s.condition = .ready values pattern)
    (takes : o.Takes s.classes v) : s.admits (.text o.name) v = .ok true := by
  have required : s.require (.text o.name) = .ok (values, pattern) := by rw [require, ready]
  unfold admits
  rw [required]
  cases o with
  | wrap => exact congrArg Except.ok takes
  | lineBreak => exact congrArg Except.ok takes
  | breakAt =>
    obtain ⟨isText, chars, _, found, _⟩ := takes
    have known : Entries.contains v s.classes = true := by rw [Entries.contains, found]; rfl
    refine congrArg Except.ok ?_
    rw [isText, known]
    rfl

theorem takes_of_write {option : Value} {change : Change}
    (named : OptionName.ofValue option = .ok o) (e : s.write option v = .ok (change, t)) :
    o.Takes s.classes v := by
  obtain ⟨_, _, name, pattern', _, known, asked, _, _, compiled⟩ := write_cases e
  obtain rfl : o = name := Except.ok.inj (named.symm.trans known)
  obtain ⟨rfl, isText, chars, found⟩ | ⟨other, isBool⟩ := admits_cases named asked
  · rw [if_pos rfl, found] at compiled
    exact ⟨isText, chars, pattern', found, compiled⟩
  · cases o with
    | breakAt => exact absurd rfl other
    | wrap => exact isBool
    | lineBreak => exact isBool

theorem write_iff_takes (ready : s.condition = .ready values pattern) :
    (∃ p, s.write (.text o.name) v = .ok p) ↔ o.Takes s.classes v := by
  constructor
  · rintro ⟨⟨change, t⟩, e⟩
    exact takes_of_write (OptionName.ofValue_name o) e
  · intro takes
    have required : s.require (.text o.name) = .ok (values, pattern) := by rw [require, ready]
    unfold write
    rw [required]
    change ∃ p, (s.admits (.text o.name) v >>= _) = _
    rw [admits_of_takes ready takes]
    cases o with
    | wrap => exact ⟨_, rfl⟩
    | lineBreak => exact ⟨_, rfl⟩
    | breakAt =>
      obtain ⟨-, chars, pattern', found, compiled⟩ := takes
      have chosen : Pattern.ofClass ((Entries.get? v s.classes).getD .null) = .ok pattern' := by
        rw [found]
        exact compiled
      change ∃ p, (Pattern.ofClass ((Entries.get? v s.classes).getD .null) >>= _) = _
      rw [chosen]
      exact ⟨_, rfl⟩

/-! ## What ready stores hold -/

/-- A store over given classes whose options, while it is ready, have values that the policy
allows. -/
structure Fits (classes : Entries) (s : Store) : Prop where
  table : s.classes = classes
  initial : s.initial.Typed
  takes : ∀ values pattern, s.condition = .ready values pattern →
    ∀ o : OptionName, o.Takes classes (values.get o)

theorem Fits.of_same (fits : s.Fits classes) (initial : t.initial = s.initial)
    (table : t.classes = s.classes) (condition : t.condition = s.condition) : t.Fits classes := by
  refine ⟨table.trans fits.table, initial ▸ fits.initial, ?_⟩
  rw [condition]
  exact fits.takes

theorem Step.fits {write : Option Change} (step : Step s write t) (fits : s.Fits classes) :
    t.Fits classes := by
  cases step with
  | start e =>
    obtain ⟨_, rfl⟩ | ⟨_, chars, pattern, found, compiled, rfl⟩ := start_cases e
    · exact fits
    · refine ⟨fits.table, fits.initial, ?_⟩
      rintro values pattern ⟨⟩
      rw [fits.table] at found
      exact OptionValues.takes_iff.mpr ⟨fits.initial, chars, pattern, found, compiled⟩
  | close =>
    unfold Store.close
    split
    · exact fits
    · refine ⟨fits.table, fits.initial, ?_⟩
      rintro values pattern ⟨⟩
  | write e =>
    obtain ⟨values, pattern, name, pattern', ready, named, _, _, rfl, _⟩ := write_cases e
    refine ⟨fits.table, fits.initial, ?_⟩
    rintro _ _ ⟨⟩ o
    -- Only the option that is written has another value than before.
    rw [OptionValues.get_set]
    split
    next same => exact same ▸ fits.table ▸ takes_of_write named e
    next => exact fits.takes values pattern ready o
  | register id => exact fits.of_same rfl rfl rfl
  | unregister e =>
    obtain rfl := unregister_eq_ok e
    exact fits.of_same rfl rfl rfl

end Store

theorem Host.Path.fits {classes : Entries} {h h' : Host} (path : h.Path h')
    (fits : h.store.Fits classes) : h'.store.Fits classes := by
  induction path with
  | refl => exact fits
  | tail _ move ih =>
    cases move with
    | stored step => exact step.fits ih
    | _ => exact ih

/-! ## Writes on a host -/

/-- The host right after a write, when nobody has been told of it yet. -/
def Host.written (h : Host) (change : Change) (t : Store) : Host :=
  { h with store := t, journal := .stored t (some change) :: h.journal }.saying
    (changeRecord change)

namespace Act

variable {calm : List (ListenerId × Listener) → Prop} {respond : Response} {bridge : Nat}
  {o : OptionName} {v : Value} {h : Host}

/-- A write is made: it succeeds, or it fails only since the telling of it breaks off. -/
def Makes {α : Type} (respond : Response) (o : OptionName) (v : Value) (act : Act α)
    (h : Host) : Prop :=
  ∃ out h', act h = some (out, h') ∧ ((∃ a, out = .ok a) ∨
    (∃ r, out = .error r) ∧ ∃ change t, h.store.write (.text o.name) v = .ok (change, t) ∧
      BrokeOff respond change h')

theorem setOption_makes_iff (ends : respond.Ends calm) (listening : calm h.listeners) :
    (setOption respond (.text o.name) v).Makes respond o v h ↔
      ∃ p, h.store.write (.text o.name) v = .ok p := by
  constructor
  · rintro ⟨out, h', e, ⟨_, rfl⟩ | ⟨-, change, t, written, -⟩⟩
    · cases written : h.store.write (.text o.name) v with
      | ok p => exact ⟨p, rfl⟩
      | error fault =>
        rw [setOption_of_refused written] at e
        cases e
    · exact ⟨_, written⟩
  · rintro ⟨⟨change, t⟩, written⟩
    obtain ⟨out, h', e⟩ := (setOption_ends ends (.text o.name) v).result listening
    obtain rfl | ⟨rfl, brokeOff⟩ := setOption_of_written written e
    · exact ⟨_, h', e, .inl ⟨_, rfl⟩⟩
    · exact ⟨_, h', e, .inr ⟨⟨_, rfl⟩, change, t, written, brokeOff⟩⟩

/-- No failure of a response to calm listeners' being told lacks a text. -/
def Outspoken (calm : List (ListenerId × Listener) → Prop) (respond : Response) : Prop :=
  ∀ id change g r g', respond id change g = some (.error r, g') → calm g.listeners →
    r.text? ≠ none

theorem forM_tell_ok (ends : respond.Ends calm) (outspoken : Outspoken calm respond)
    {change : Change} {ids : List ListenerId} {h' : Host} {out : Except Raised Unit}
    (listening : calm h.listeners) (e : ids.forM (tell respond change) h = some (out, h')) :
    out = .ok () := by
  induction ids generalizing h with
  | nil =>
    cases e
    rfl
  | cons id ids ih =>
    change (tell respond change id >>= fun _ => ids.forM (tell respond change)) h = _ at e
    -- Whatever comes of telling one party, the listeners are calm after it.
    have after {out : Except Raised Unit} {h₁ : Host}
        (heard : respond id change { h with journal := .notified id change :: h.journal } =
          some (out, h₁)) : calm h₁.listeners := by
      obtain ⟨_, _, came, calm'⟩ := ends id change
        { h with journal := .notified id change :: h.journal } listening
      cases came.symm.trans heard
      exact calm'
    obtain ⟨r, broken, -⟩ | ⟨_, h₁, told, e⟩ := bind_eq_some e
    · cases tell_told broken with
      | cut heard unsaid => exact absurd unsaid (outspoken _ _ _ _ _ heard listening)
    · cases tell_told told with
      | returned heard => exact ih (after heard) e
      | @failed h₁ r text heard _ =>
        have calm' : calm h₁.listeners := after heard
        exact ih (h := h₁.saying (listenerRecord change text)) calm' e

theorem require_attached (o : OptionName) (h : Host) :
    (Bridge.require true o : Act Unit) h = some (.ok (), h) := rfl

theorem setOption_of_taken {option : Value} {change : Change} {t : Store}
    (taken : h.store.write option v = .ok (change, t)) :
    setOption respond option v h =
      (h.store.audience change).forM (tell respond change) (h.written change t) := by
  unfold setOption
  rw [ask_pure_bind_apply, taken, ofExcept_ok, pure_bind_apply]
  dsimp only
  rw [bind_of_ok (setStore_apply t _ h), bind_of_ok (say_saying _ _), Store.audience]
  split <;> rfl

/-- Where every failure of a listener has a text, the writes that the store takes succeed. -/
theorem setOption_ok_iff (ends : respond.Ends calm) (outspoken : Outspoken calm respond)
    (listening : calm h.listeners) {option : Value} :
    (∃ h', setOption respond option v h = some (.ok (), h')) ↔
      ∃ p, h.store.write option v = .ok p := by
  constructor
  · rintro ⟨h', e⟩
    cases written : h.store.write option v with
    | ok p => exact ⟨p, rfl⟩
    | error fault =>
      rw [setOption_of_refused written] at e
      cases e
  · rintro ⟨⟨change, t⟩, written⟩
    obtain ⟨out, h', e⟩ := (setOption_ends ends option v).result listening
    rw [setOption_of_taken written] at e ⊢
    obtain rfl := forM_tell_ok ends outspoken (h := h.written change t) listening e
    exact ⟨h', e⟩

theorem storeAccess_admits (respond : Response) (o : OptionName) (v : Value) (h : Host) :
    (storeAccess respond).admits o v h =
      some ((h.store.admits (.text o.name) v).mapError fun fault => ⟨fault, none⟩, h) :=
  ask_apply (·.admits (.text o.name) v) h

/-- A value of the type, which the store admits where it is asked, is written. -/
theorem set_of_passed (typed : o.typed v = true)
    (asked : o.isEnumerated = true → h.store.admits (.text o.name) v = .ok true) :
    Bridge.set (storeAccess respond) true o v h =
      (setOption respond (.text o.name) v h).map (Bridge.concluded o v) := by
  unfold Bridge.set
  rw [bind_of_ok (require_attached o h)]
  dsimp only
  rw [if_neg (by simp [typed])]
  split
  next enumerated =>
    have admitted := storeAccess_admits respond o v h
    rw [asked enumerated] at admitted
    rw [bind_of_ok admitted]
    exact carryOut_concluded h
  next => exact carryOut_concluded h

theorem access_eq (attached : Bool) (opened : h.bridges[bridge]? = some attached) (a : Accessor)
    (args : List Value) (kwargs : Entries) :
    access respond bridge a args kwargs h =
      Bridge.call (storeAccess respond) attached a args kwargs h := by
  change Bridge.call (storeAccess respond) (h.bridges.getD bridge false) a args kwargs h = _
  rw [List.getD_eq_getElem?_getD, opened]
  rfl

/-- What comes of a setter that lets the value through: no more and no less than what comes of the
write, and a record of it if it succeeds. -/
theorem access_of_passed (opened : h.bridges[bridge]? = some true) {args : List Value}
    {kwargs : Entries} (given : (Accessor.setter o).argument args kwargs = .ok v)
    (typed : o.typed v = true)
    (asked : o.isEnumerated = true → h.store.admits (.text o.name) v = .ok true) :
    access respond bridge (.setter o) args kwargs h =
      (setOption respond (.text o.name) v h).map fun p =>
        ((Bridge.concluded o v p).1.map fun _ => .null, (Bridge.concluded o v p).2) := by
  have set : Bridge.set (storeAccess respond) true o v h = _ := set_of_passed typed asked
  rw [access_eq true opened, Bridge.call, given]
  change (Bridge.set (storeAccess respond) true o v >>= fun _ => pure Value.null) h = _
  rw [bind_apply, set]
  cases setOption respond (.text o.name) v h with
  | none => rfl
  | some p =>
    obtain ⟨out, h'⟩ := p
    cases out <;> rfl

section

variable {values : OptionValues} {pattern : Pattern}
  (ready : h.store.condition = .ready values pattern) (attached : h.bridges[bridge]? = some true)

include ready attached

theorem access_of_takes (takes : o.Takes h.store.classes v) :
    access respond bridge (.setter o) [v] [] h =
      (setOption respond (.text o.name) v h).map fun p =>
        ((Bridge.concluded o v p).1.map fun _ => .null, (Bridge.concluded o v p).2) := by
  have given : (Accessor.setter o).argument [v] [] = .ok v := by cases o <;> rfl
  exact access_of_passed attached given takes.typed fun _ => Store.admits_of_takes ready takes

theorem access_ok_iff :
    (∃ u h', access respond bridge (.setter o) [v] [] h = some (.ok u, h')) ↔
      ∃ h', setOption respond (.text o.name) v h = some (.ok (), h') := by
  have given : (Accessor.setter o).argument [v] [] = .ok v := by cases o <;> rfl
  constructor
  · rintro ⟨u, h', e⟩
    obtain ⟨⟨_, impossible⟩, -⟩ | ⟨wrote, h₁, ran, -, ⟨-, rfl⟩ | ⟨⟨_, impossible⟩, -⟩⟩ :=
      access_setter given e
    · cases impossible
    · exact ⟨h₁, ran⟩
    · cases impossible
  · rintro ⟨h₁, e⟩
    cases written : h.store.write (.text o.name) v with
    | error fault =>
      rw [setOption_of_refused written] at e
      cases e
    | ok p =>
      have takes := (Store.write_iff_takes ready).mp ⟨p, written⟩
      exact ⟨.null, _, by rw [access_of_takes ready attached takes, e]; rfl⟩

theorem access_makes_iff :
    (access respond bridge (.setter o) [v] []).Makes respond o v h ↔
      (setOption respond (.text o.name) v).Makes respond o v h := by
  constructor
  · rintro ⟨out, h', e, ⟨u, rfl⟩ | ⟨-, change, t, written, brokeOff⟩⟩
    · obtain ⟨h₁, ran⟩ := (access_ok_iff ready attached).mp ⟨u, h', e⟩
      exact ⟨_, h₁, ran, .inl ⟨_, rfl⟩⟩
    · have takes := (Store.write_iff_takes ready).mp ⟨_, written⟩
      rw [access_of_takes ready attached takes] at e
      obtain ⟨⟨wrote, h₁⟩, ran, -⟩ := Option.map_eq_some_iff.mp e
      obtain rfl | ⟨rfl, brokeOff⟩ := setOption_of_written written ran
      · exact ⟨_, h₁, ran, .inl ⟨_, rfl⟩⟩
      · exact ⟨_, h₁, ran, .inr ⟨⟨_, rfl⟩, change, t, written, brokeOff⟩⟩
  · rintro ⟨out, h₁, e, ⟨u, rfl⟩ | ⟨⟨r, rfl⟩, change, t, written, brokeOff⟩⟩
    · obtain ⟨u, h', ran⟩ := (access_ok_iff ready attached).mpr ⟨h₁, e⟩
      exact ⟨_, h', ran, .inl ⟨_, rfl⟩⟩
    · have takes := (Store.write_iff_takes ready).mp ⟨_, written⟩
      have came : access respond bridge (.setter o) [v] [] h = _ :=
        access_of_takes ready attached takes
      rw [e] at came
      exact ⟨_, h₁, came, .inr ⟨⟨_, rfl⟩, change, t, written, brokeOff⟩⟩

end

end Act

/-! ## All ways -/

/-- On a host with a ready store, an option can be written with the values that it could have had
from the start, and with no others, whether the store is written or a bridge. -/
structure Host.Impartial (classes : Entries) (h : Host) : Prop where
  /-- What the store holds could have been its initial values. -/
  held : ∀ values pattern, h.store.condition = .ready values pattern →
    ∃ s, values.launch classes = .ok s
  /-- This concerns one option; what the others were at the start is left open, as long as the store
  could be started. -/
  written : ∀ values pattern, h.store.condition = .ready values pattern →
    ∀ (calm : List (ListenerId × Listener) → Prop) (respond : Response), respond.Ends calm →
      calm h.listeners → ∀ (o : OptionName) (v : Value) (others : OptionValues),
        (∃ s, others.launch classes = .ok s) →
          ((setOption respond (.text o.name) v).Makes respond o v h ↔
            ∃ s, (others.set v o).launch classes = .ok s)
  /-- A write that is made succeeds where every failure of a listener has a text. -/
  heard : ∀ values pattern, h.store.condition = .ready values pattern →
    ∀ (calm : List (ListenerId × Listener) → Prop) (respond : Response), respond.Ends calm →
      Outspoken calm respond → calm h.listeners →
        ∀ (o : OptionName) (v : Value) (others : OptionValues),
          (∃ s, others.launch classes = .ok s) →
            ((∃ h', setOption respond (.text o.name) v h = some (.ok (), h')) ↔
              ∃ s, (others.set v o).launch classes = .ok s)
  /-- By way of a bridge the same writes are made, and the same ones succeed. -/
  bridged : ∀ values pattern, h.store.condition = .ready values pattern →
    ∀ respond bridge, h.bridges[bridge]? = some true → ∀ (o : OptionName) (v : Value),
      ((access respond bridge (.setter o) [v] []).Makes respond o v h ↔
          (setOption respond (.text o.name) v).Makes respond o v h) ∧
        ((∃ u h', access respond bridge (.setter o) [v] [] h = some (.ok u, h')) ↔
          ∃ h', setOption respond (.text o.name) v h = some (.ok (), h'))

namespace Store

/-- Settings are read iff a store can be made of them, in one go or step by step. What is read,
however leniently, makes a store that holds it. From then on an option can be given the values that
it could have had from the start, by whichever way. -/
theorem admissions_agree :
    (∀ o : OptionSettings, (o.classes.map Prod.fst).Nodup →
      ((∃ o', OptionSettings.read o.toValue = .ok o') ↔ ∃ s, o.toRaw.toStore = .ok s) ∧
        ((∃ s, o.toRaw.toStore = .ok s) ↔ ∃ s, o.values.launch o.classEntries = .ok s)) ∧
    (∀ v o, OptionSettings.read v = .ok o → ∃ s, o.toRaw.toStore = .ok s ∧ s.Embodies o) ∧
    ∀ window shared classes store, create (.ofOptions window shared) classes = .ok store →
      ∀ h, (Host.ofStore store).Path h → h.Impartial classes := by
  refine ⟨?_, fun v o e => OptionSettings.launch_of_read e, ?_⟩
  · intro o nodup
    rw [OptionSettings.toStore_toRaw, OptionSettings.launch_iff]
    exact ⟨OptionSettings.read_toValue_iff nodup, .rfl⟩
  · intro window shared classes store created h reached
    obtain ⟨full, rfl⟩ := create_eq_ok_iff.mp created
    have begun : Fits classes ⟨.ofOptions window shared, classes, .uninitialized, []⟩ := by
      refine ⟨rfl, OptionValues.typed_ofOptions window shared, ?_⟩
      rintro values pattern ⟨⟩
    have fits := Host.Path.fits reached begun
    constructor
    · intro values pattern ready
      exact OptionValues.launch_iff.mpr ⟨full, fits.takes values pattern ready⟩
    · intro values pattern ready calm respond ends listening o v others launched
      rw [setOption_makes_iff ends listening, write_iff_takes ready, fits.table,
        OptionValues.launch_set_iff launched]
    · intro values pattern ready calm respond ends outspoken listening o v others launched
      rw [setOption_ok_iff ends outspoken listening, write_iff_takes ready, fits.table,
        OptionValues.launch_set_iff launched]
    · intro values pattern ready respond bridge attached o v
      exact ⟨access_makes_iff ready attached, access_ok_iff ready attached⟩

/-- Listeners that make no requests, and whose failures have texts. -/
def Frank (listeners : List (ListenerId × Listener)) : Prop :=
  ∀ e ∈ listeners, ∀ change,
    (e.2 change).isInert = true ∧ ∀ r, e.2 change = .raises r → r.text? ≠ none

theorem Frank.inert {listeners : List (ListenerId × Listener)} (frank : Frank listeners) :
    Inert listeners :=
  fun e member change => (frank e member change).1

theorem respond_outspoken (depth : Nat) :
    Outspoken Frank (Session.respond (depth + 1)) := by
  intro id change g r g' came frank
  obtain ⟨out, responded, failing⟩ := Session.respond_of_inert depth id change (Frank.inert frank)
  cases responded.symm.trans came
  obtain ⟨e, member, raised⟩ := failing r rfl
  exact (frank e member change).2 r raised

def hollow : OptionSettings := ⟨true, false, "ascii", [("ascii", " "), ("none", "")]⟩

/-- Truth values in words and numbers. -/
def loose : Value :=
  .dict [(.text "wrap", .text "Off"), (.text "line_break", .int 1),
    (.text "break_at", .text "whitespace")]

/-- The store is started, a listener that always fails is registered, and a bridge opened. -/
def opening : List Request :=
  [.start, .register "failing" fun _ => .raises ⟨.foreign "RuntimeError" "heard", none⟩,
    .openBridge]

/-- A number is read where a truth value is meant, but it makes no store and is not written. -/
theorem admissions_agree_loose :
    (¬ ∃ s, hollow.toRaw.toStore = .ok s) ∧
      (∃ o s, OptionSettings.read loose = .ok o ∧ o.toRaw.toStore = .ok s ∧ s.Embodies o) ∧
      ∃ store replies h, create (.ofOptions ⟨true, false⟩ ⟨"ascii"⟩) builtinClasses = .ok store ∧
        Session.steps 1 opening (Host.ofStore store) = some (replies, h) ∧
        (∃ u h', access (Session.respond 1) 0 (.setter .breakAt) [.text "whitespace"] [] h =
          some (.ok u, h')) ∧
        (¬ ∃ s, (OptionValues.initial.set (.int 1) .wrap).launch builtinClasses = .ok s) ∧
        ¬ (setOption (Session.respond 1) (.text "wrap") (.int 1)).Makes (Session.respond 1)
          .wrap (.int 1) h := by
  obtain ⟨paths, read, hosts⟩ := admissions_agree
  refine ⟨?_, ?_, ?_⟩
  · rw [← (paths hollow (by decide)).1]
    rintro ⟨o, e⟩
    cases e
  · have came : OptionSettings.read loose =
        .ok ⟨false, true, "whitespace", OptionSettings.builtinClasses⟩ := rfl
    obtain ⟨s, made, embodies⟩ := read loose _ came
    exact ⟨_, s, came, made, embodies⟩
  · have created : create (.ofOptions ⟨true, false⟩ ⟨"ascii"⟩) builtinClasses =
        .ok ⟨.initial, builtinClasses, .uninitialized, []⟩ := rfl
    have begun : ∃ replies h values pattern,
        Session.steps 1 opening (Host.ofStore ⟨.initial, builtinClasses, .uninitialized, []⟩) =
          some (replies, h) ∧ h.store.condition = .ready values pattern ∧
        h.bridges[0]? = some true ∧ Frank h.listeners := by
      refine ⟨_, _, _, _, rfl, rfl, rfl, ?_⟩
      rintro e member change
      obtain rfl := List.mem_singleton.mp member
      exact ⟨rfl, by rintro r ⟨⟩ ⟨⟩⟩
    obtain ⟨replies, h, values, pattern, run, ready, attached, frank⟩ := begun
    have impartial := hosts _ _ _ _ created h (Session.steps_path run)
    have launched : ∃ s, OptionValues.initial.launch builtinClasses = .ok s := ⟨_, rfl⟩
    have writes := impartial.heard values pattern ready Frank _
      (Session.respond_ends_of (fun _ => Frank.inert) 0) (respond_outspoken 0) frank
    have made := impartial.written values pattern ready Frank _
      (Session.respond_ends_of (fun _ => Frank.inert) 0) frank
    have number : ¬ ∃ s,
        (OptionValues.initial.set (.int 1) .wrap).launch builtinClasses = .ok s := by
      rintro ⟨s, e⟩
      cases e
    refine ⟨_, replies, h, created, run, ?_, number, ?_⟩
    · rw [(impartial.bridged values pattern ready _ 0 attached _ _).2,
        writes .breakAt (.text "whitespace") .initial launched]
      exact ⟨_, rfl⟩
    · exact fun wrote => number ((made .wrap (.int 1) .initial launched).mp wrote)

end Store

end OptionHost
