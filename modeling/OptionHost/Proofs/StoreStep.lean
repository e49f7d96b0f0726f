import OptionHost.Proofs.Move
import OptionHost.Settings.Initial

/-!
# One step of a store

What each operation does to a store, and what no operation can break: the stages of its life come
in one order only, the values of a ready store are of their types, and its pattern is the one of
the class that is selected. Classes are texts under texts throughout.
-/

namespace OptionHost

inductive Lifecycle.Follows : Lifecycle → Lifecycle → Prop where
  | stays (stage : Lifecycle) : Follows stage stage
  | readied : Follows .uninitialized .ready
  | dropped : Follows .uninitialized .closed
  | closed : Follows .ready .closed

def Entries.Textual (classes : Entries) : Prop :=
  ∀ e ∈ classes, e.1.isText = true ∧ e.2.isText = true

theorem builtinClasses_textual : builtinClasses.Textual := by
  unfold Entries.Textual
  decide

theorem Entries.Textual.get? {classes : Entries} (textual : classes.Textual) {key chars : Value}
    (found : classes.get? key = some chars) : ∃ text, chars = .text text := by
  induction classes with
  | nil => cases found
  | cons e rest ih =>
    obtain ⟨k, v⟩ := e
    unfold Entries.get? at found
    split at found
    · cases found
      have isText := (textual (k, chars) List.mem_cons_self).2
      cases chars with
      | text text => exact ⟨text, rfl⟩
      | _ => cases isText
    · exact ih (fun e he => textual e (List.mem_cons_of_mem _ he)) found

/-- Values of the right types, the last of them the name of a class. -/
structure OptionValues.Typed (values : OptionValues) : Prop where
  wrap : ∃ b, values.wrap = .bool b
  lineBreak : ∃ b, values.lineBreak = .bool b
  breakAt : ∃ name, values.breakAt = .text name

theorem OptionValues.typed_ofOptions (window : WindowOptions) (shared : SharedOptions) :
    (OptionValues.ofOptions window shared).Typed :=
  ⟨⟨_, rfl⟩, ⟨_, rfl⟩, ⟨_, rfl⟩⟩

/-- The pattern is the one of the characters that the table gives for the selected class. -/
def OptionValues.Selects (values : OptionValues) (classes : Entries) (pattern : Pattern) : Prop :=
  ∃ chars, classes.get? values.breakAt = some (.text chars) ∧ pattern = .ofChars chars.toList

/-- What holds of a store with given classes in every stage of its life. -/
structure Store.Sound (classes : Entries) (s : Store) : Prop where
  table : s.classes = classes
  initial : s.initial.Typed
  typed : ∀ values pattern, s.condition = .ready values pattern → values.Typed
  selects : ∀ values pattern, s.condition = .ready values pattern →
    values.Selects classes pattern

namespace Store

variable {s t : Store} {classes : Entries}

theorem create_eq_ok {initial : OptionValues} (e : create initial classes = .ok s) :
    s = ⟨initial, classes, .uninitialized, []⟩ := by
  unfold create at e
  obtain ⟨names, _, e⟩ := Except.bind_eq_ok e
  split at e
  · cases e
    rfl
  · cases e

theorem sound_of_create {window : WindowOptions} {shared : SharedOptions}
    (e : create (.ofOptions window shared) classes = .ok s) : s.Sound classes := by
  rw [create_eq_ok e]
  refine ⟨rfl, OptionValues.typed_ofOptions window shared, ?_, ?_⟩
  · rintro values pattern ⟨⟩
  · rintro values pattern ⟨⟩

/-! ## What the operations do -/

/-- A start finds the store ready, or makes it ready with the pattern of its initial class. -/
theorem start_cases (e : s.start = .ok t) :
    (s.stage = .ready ∧ t = s) ∨
      (s.stage = .uninitialized ∧ ∃ chars pattern,
        s.classes.get? s.initial.breakAt = some chars ∧ Pattern.ofClass chars = .ok pattern ∧
          t = { s with condition := .ready s.initial pattern }) := by
  unfold start at e
  cases condition : s.condition with
  | ready values pattern =>
    rw [condition] at e
    cases e
    exact .inl ⟨by rw [stage, condition]; rfl, rfl⟩
  | closed =>
    rw [condition] at e
    cases e
  | uninitialized =>
    rw [condition] at e
    obtain ⟨found, known, e⟩ := Except.bind_eq_ok e
    refine .inr ⟨by rw [stage, condition]; rfl, ?_⟩
    cases found with
    | none =>
      obtain ⟨names, _, e⟩ := Except.bind_eq_ok e
      cases e
    | some chars =>
      obtain ⟨pattern, compiled, e⟩ := Except.bind_eq_ok e
      cases e
      refine ⟨chars, pattern, ?_, compiled, rfl⟩
      unfold classOf at known
      split at known
      · cases known
      · exact Except.ok.inj known

theorem close_stage (s : Store) : s.close.stage = .closed := by
  unfold close stage
  split
  · rename_i condition
    rw [condition]
    rfl
  · rfl

theorem require_eq_ok {option : Value} {values : OptionValues} {pattern : Pattern}
    (e : s.require option = .ok (values, pattern)) : s.condition = .ready values pattern := by
  unfold require at e
  split at e
  · cases e
    assumption
  · cases e

/-- The host admits truth values, and the names of its classes. -/
theorem admits_cases {option value : Value} {name : OptionName}
    (named : OptionName.ofValue option = .ok name) (e : s.admits option value = .ok true) :
    (name = .breakAt ∧ value.isText = true ∧ ∃ chars, s.classes.get? value = some chars) ∨
      (name ≠ .breakAt ∧ value.isBool = true) := by
  unfold admits at e
  obtain ⟨_, _, e⟩ := Except.bind_eq_ok e
  rw [named] at e
  cases name with
  | breakAt =>
    have admitted : (value.isText && Entries.contains value s.classes) = true := Except.ok.inj e
    rw [Bool.and_eq_true] at admitted
    exact .inl ⟨rfl, admitted.1, Option.isSome_iff_exists.mp admitted.2⟩
  | wrap => exact .inr ⟨by decide, Except.ok.inj e⟩
  | lineBreak => exact .inr ⟨by decide, Except.ok.inj e⟩

/-- A write finds the store ready and leaves it ready. It sets one option, to a value that the
host admits; the pattern changes with the selected class and with nothing else. -/
theorem write_cases {option value : Value} {change : Change}
    (e : s.write option value = .ok (change, t)) :
    ∃ values pattern name pattern', s.condition = .ready values pattern ∧
      OptionName.ofValue option = .ok name ∧ s.admits option value = .ok true ∧
      change = ⟨name, values.get name, value⟩ ∧
      t = { s with condition := .ready (values.set value name) pattern' } ∧
      if name = .breakAt then
        Pattern.ofClass ((s.classes.get? value).getD .null) = .ok pattern'
      else pattern' = pattern := by
  unfold write at e
  obtain ⟨⟨values, pattern⟩, required, e⟩ := Except.bind_eq_ok e
  obtain ⟨admitted, asked, e⟩ := Except.bind_eq_ok e
  cases admitted with
  | false => cases e
  | true =>
    obtain ⟨name, named, e⟩ := Except.bind_eq_ok e
    have ready := require_eq_ok required
    cases name with
    | breakAt =>
      obtain ⟨pattern', compiled, e⟩ := Except.bind_eq_ok e
      cases e
      exact ⟨values, pattern, .breakAt, pattern', ready, named, asked, rfl, rfl, compiled⟩
    | wrap =>
      cases e
      exact ⟨values, pattern, .wrap, pattern, ready, named, asked, rfl, rfl, rfl⟩
    | lineBreak =>
      cases e
      exact ⟨values, pattern, .lineBreak, pattern, ready, named, asked, rfl, rfl, rfl⟩

theorem unregister_eq_ok {id : ListenerId} (e : s.unregister id = .ok t) :
    t = { s with listeners := s.listeners.erase id } := by
  unfold unregister at e
  split at e
  · cases e
    rfl
  · cases e

/-! ## What no operation breaks -/

theorem Step.follows {write : Option Change} (step : Step s write t) :
    s.stage.Follows t.stage := by
  cases step with
  | start e =>
    obtain ⟨_, rfl⟩ | ⟨uninitialized, chars, pattern, _, _, rfl⟩ := start_cases e
    · exact .stays _
    · rw [uninitialized]
      exact .readied
  | close =>
    rw [close_stage]
    cases s.stage with
    | uninitialized => exact .dropped
    | ready => exact .closed
    | closed => exact .stays _
  | write e =>
    obtain ⟨values, pattern, name, pattern', ready, _, _, _, rfl, _⟩ := write_cases e
    rw [stage, ready]
    exact .stays _
  | register id => exact .stays _
  | unregister e =>
    obtain rfl := unregister_eq_ok e
    exact .stays _

theorem Sound.of_same (sound : s.Sound classes) (initial : t.initial = s.initial)
    (table : t.classes = s.classes) (condition : t.condition = s.condition) :
    t.Sound classes := by
  refine ⟨table.trans sound.table, initial ▸ sound.initial, ?_, ?_⟩
  · rw [condition]
    exact sound.typed
  · rw [condition]
    exact sound.selects

theorem Sound.of_ready (sound : s.Sound classes) {values : OptionValues} {pattern : Pattern}
    (typed : values.Typed) (selects : values.Selects classes pattern) :
    Sound classes { s with condition := .ready values pattern } := by
  refine ⟨sound.table, sound.initial, ?_, ?_⟩
  · rintro values' pattern' ⟨⟩
    exact typed
  · rintro values' pattern' ⟨⟩
    exact selects

theorem Sound.start (sound : s.Sound classes) (textual : classes.Textual)
    (e : s.start = .ok t) : t.Sound classes := by
  obtain ⟨_, rfl⟩ | ⟨_, chars, pattern, found, compiled, rfl⟩ := start_cases e
  · exact sound
  · rw [sound.table] at found
    obtain ⟨text, rfl⟩ := textual.get? found
    refine sound.of_ready sound.initial ⟨text, found, ?_⟩
    exact (Except.ok.inj compiled).symm

theorem Sound.close (sound : s.Sound classes) : s.close.Sound classes := by
  unfold Store.close
  split
  · exact sound
  · refine ⟨sound.table, sound.initial, ?_, ?_⟩
    · rintro values pattern ⟨⟩
    · rintro values pattern ⟨⟩

theorem Sound.write (sound : s.Sound classes) (textual : classes.Textual)
    {option value : Value} {change : Change} (e : s.write option value = .ok (change, t)) :
    t.Sound classes := by
  obtain ⟨values, pattern, name, pattern', ready, named, asked, _, rfl, compiled⟩ :=
    write_cases e
  have typed := sound.typed values pattern ready
  have selects := sound.selects values pattern ready
  obtain ⟨rfl, isText, chars, found⟩ | ⟨other, isBool⟩ := admits_cases named asked
  · rw [if_pos rfl, found] at compiled
    rw [sound.table] at found
    obtain ⟨text, rfl⟩ := textual.get? found
    have compiledText : pattern' = .ofChars text.toList := (Except.ok.inj compiled).symm
    cases value with
    | text selected =>
      exact sound.of_ready ⟨typed.wrap, typed.lineBreak, ⟨selected, rfl⟩⟩
        ⟨text, found, compiledText⟩
    | _ => cases isText
  · rw [if_neg other] at compiled
    subst compiled
    cases value with
    | bool b =>
      cases name with
      | wrap =>
        exact sound.of_ready ⟨⟨b, rfl⟩, typed.lineBreak, typed.breakAt⟩ selects
      | lineBreak =>
        exact sound.of_ready ⟨typed.wrap, ⟨b, rfl⟩, typed.breakAt⟩ selects
      | breakAt => exact absurd rfl other
    | _ => cases isBool

theorem Step.sound {write : Option Change} (step : Step s write t) (textual : classes.Textual)
    (sound : s.Sound classes) : t.Sound classes := by
  cases step with
  | start e => exact sound.start textual e
  | close => exact sound.close
  | write e => exact sound.write textual e
  | register id => exact sound.of_same rfl rfl rfl
  | unregister e =>
    obtain rfl := unregister_eq_ok e
    exact sound.of_same rfl rfl rfl

end Store

end OptionHost
