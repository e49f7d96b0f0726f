import OptionHost.Proofs.LoadStages

/-!
# Settings read again

However leniently settings were read, what they are written as is read as the same settings. So
where the environment has nothing to say, a load comes to what its first check made of the files.
-/

namespace OptionHost

/-- What was read, from whatever value, is read again from what it is written as. -/
def Rereads {ε α : Type} (read : Value → Except ε α) (write : α → Value) : Prop :=
  ∀ v a, read v = .ok a → read (write a) = .ok a

/-- A part that a mapping may leave out is read again, if what stands for it then is. -/
theorem Rereads.field {α : Type} {read : Reader α} {write : α → Value}
    (rereads : Rereads read write) {entries : Entries} {name : String} {otherwise a : α}
    (start : read (write otherwise) = .ok otherwise)
    (ok : Reader.field entries name otherwise read = .ok a) : read (write a) = .ok a := by
  have there := Reader.field_ok ok
  cases named : entries.named? name with
  | none =>
    rw [named] at there
    cases there
    exact start
  | some v =>
    rw [named] at there
    exact rereads v a there

/-! ## Sections -/

/-- Keys that are read as one text have become one, so the table names each class once. -/
theorem OptionSettings.rereads : Rereads read toValue := by
  intro v o ok
  obtain ⟨entries, -, -, -, -, classes, -, rule⟩ := read_ok ok
  exact read_toValue (Setting.names_of_classes (Reader.field_ok classes)) rule

theorem ScriptSettings.rereads : Rereads read toValue := by
  intro v s ok
  obtain ⟨entries, -, engine, limit, -, -, -⟩ := read_ok ok
  have engine := Setting.engine.read_toValue (Reader.field_ok engine)
  have limit := Setting.limit.read_toValue (Reader.field_ok limit)
  exact read_of_fields (Checked.under_eq_ok.mpr engine) (Checked.under_eq_ok.mpr limit) rfl rfl rfl

theorem LogSettings.rereads : Rereads read toValue := by
  intro v s ok
  obtain ⟨entries, -, level, -⟩ := read_ok ok
  have level := Setting.level.read_toValue (Reader.field_ok level)
  exact read_of_fields (Checked.under_eq_ok.mpr level) rfl

namespace Settings

/-! ## Documents -/

theorem rereads : Rereads read toValue := by
  intro v c ok
  cases v with
  | dict root =>
    obtain ⟨options, scripting, logging, -⟩ := read_ok ok
    have options := OptionSettings.rereads.field rfl options
    have scripting := ScriptSettings.rereads.field rfl scripting
    have logging := LogSettings.rereads.field rfl logging
    exact read_of_fields rfl (Checked.under_eq_ok.mpr options) (Checked.under_eq_ok.mpr scripting)
      (Checked.under_eq_ok.mpr logging) rfl
  | _ => cases ok

theorem readNamed_toValue (c : Settings) : readNamed c.toValue = read c.toValue := by
  have named := nameSections_of_sectioned c.toValue_sectioned
  exact congrArg (fun entries => read (.dict entries)) named

theorem rereads_named : Rereads readNamed toValue := by
  intro v c ok
  rw [readNamed_toValue]
  cases v with
  | dict named => exact rereads (.dict (nameSections named)) c ok
  | _ => cases ok

/-! ## Loads without an environment -/

/-- An environment that gives no value to an override: its variable is not set, or its text cannot
be read. -/
def Mute (env : Environment) : Prop := ∀ o ∈ Override.table, o.given? env = none

variable {s : Sources} {l : Loader} {env : Environment} {base : Settings}

theorem Mute.given? (mute : Mute env) {α : Type} (setting : Setting α) :
    setting.given? env = none :=
  Option.bind_eq_none_iff.mpr fun o found => mute o (List.mem_of_find?_eq_some found)

theorem Mute.overridden (mute : Mute env) (base : Settings) :
    base.overridden env = base.toValue := by
  rw [Settings.overridden, toValue_eq]
  simp only [mute.given?, Option.getD_none]

/-- What the files give on their own is read again from what it is written as. -/
theorem read_ofFiles (accepted : s.ofFiles = .ok base) : read base.toValue = .ok base := by
  obtain ⟨layers, -, ok⟩ := Except.bind_eq_ok accepted
  exact rereads _ base ok

theorem load_of_mute (outside : l.paths = []) (extended : s.extended = .ok env)
    (mute : Mute env) : (load s l).1 = s.ofFiles := by
  rw [load_outcome s outside, extended]
  cases files : s.ofFiles with
  | error fault => rfl
  | ok base =>
    change read (base.overridden env) = _
    rw [mute.overridden, read_ofFiles files]

/-- Reading settings, a section of them or the whole, is done once for all. A load where the
environment is mute and no file adds to it ends as its first check does. -/
theorem reading_settles :
    Rereads OptionSettings.read OptionSettings.toValue ∧
      Rereads ScriptSettings.read ScriptSettings.toValue ∧
      Rereads LogSettings.read LogSettings.toValue ∧
      Rereads read toValue ∧ Rereads readNamed toValue ∧
      ∀ (files : Files) (env : Environment) (paths : List String) (l : Loader), l.paths = [] →
        Mute env → (load ⟨files, env, paths, false⟩ l).1 =
          (Loading.within (paths.filter files.contains) (build files []) l).1 := by
  refine ⟨OptionSettings.rereads, ScriptSettings.rereads, LogSettings.rereads, rereads,
    rereads_named, fun files env paths l outside mute => ?_⟩
  rw [load_of_mute outside rfl mute]
  exact (first_check_outcome ⟨files, env, paths, false⟩ l).symm

/-- A document with values in words, and with two keys that are read as one text. -/
def lax : Value :=
  .dict [
    (.text "options", .dict [(.text "wrap", .text "Off"), (.text "line_break", .int 1),
      (.text "break_at", .bytes [119, 101, 98]), (.text "break_at_classes", .dict [
        (.text "web", .text " "), (.bytes [119, 101, 98], .text "/")])]),
    (.text "scripting", .dict [(.text "max_execution_time", .text "1_0")])]

def strict : Settings :=
  ⟨⟨false, true, "web", [("web", "/")]⟩, { ScriptSettings.initial with limit := .ofInt 10 },
    .initial⟩

/-- The lax document in a file, and a variable with a text that is no truth value. -/
def muted : Sources where
  files := [("defaults.yaml", .document lax)]
  environment := [("EDITOR_WRAP", "maybe")]
  paths := usualPaths
  withEnvironmentFile := false

theorem reading_settles_lax :
    readNamed lax = .ok strict ∧ readNamed strict.toValue = .ok strict ∧
      (load muted .start).1 = .ok strict := by
  obtain ⟨-, -, -, -, named, loads⟩ := reading_settles
  have came : readNamed lax = .ok strict := Except.toOption_eq_some.mp (by decide +kernel)
  have mute : Mute muted.environment := by
    have none : ∀ o ∈ Override.table, (o.given? muted.environment).isNone = true := by
      decide +kernel
    exact fun o listed => Option.isNone_iff_eq_none.mp (none o listed)
  have first : muted.ofFiles = .ok strict := Except.toOption_eq_some.mp (by decide +kernel)
  have settled := loads muted.files muted.environment muted.paths .start rfl mute
  exact ⟨came, named lax strict came,
    settled.trans ((first_check_outcome muted .start).trans first)⟩

end Settings

end OptionHost
