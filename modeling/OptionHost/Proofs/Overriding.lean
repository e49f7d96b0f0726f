import OptionHost.Proofs.SettingsReading
import OptionHost.Settings.Loading

/-!
# What an environment overrides

The data of settings are three sections. An override that is given a value puts it at its path and
leaves everything else as it was, and none of those in the table can fail.
-/

namespace OptionHost

/-! ## One place of a section -/

namespace Value

variable {root entries : Entries} {part key : String} {value : Value}

theorem put_pair (found : root.named? part = some (.dict entries)) :
    value.put [part, key] (.dict root) =
      .ok (.dict (Entries.put part (.dict (Entries.put key value entries)) root)) := by
  simp [put, write, Entries.branch, found]

theorem at?_put_pair (found : root.named? part = some (.dict entries))
    (part' key' : String) :
    (Value.dict (Entries.put part (.dict (Entries.put key value entries)) root)).at? [part', key'] =
      if [part, key] = [part', key'] then some value
      else (Value.dict root).at? [part', key'] := by
  rw [Entries.at?_pair, Entries.at?_pair, Entries.named?_put, same_text]
  by_cases here : part = part'
  · subst here
    rw [if_pos (by simp), found, Option.bind_some, Option.bind_some, Entries.at?_single,
      Entries.at?_single, Entries.named?_put, same_text]
    by_cases this : key = key' <;> simp [this]
  · rw [if_neg (by simpa using here), if_neg (by simp [here])]

end Value

/-! ## Overrides in turn -/

/-- Data in the sections of a host, each of them a mapping. -/
def Sectioned (data : Value) : Prop :=
  ∃ options scripting logging : Entries, data = .dict [(.text "options", .dict options),
    (.text "scripting", .dict scripting), (.text "logging", .dict logging)]

theorem Settings.toValue_sectioned (s : Settings) : Sectioned s.toValue := ⟨_, _, _, rfl⟩

theorem Sectioned.put {data : Value} {part : String} (sectioned : Sectioned data)
    (known : part ∈ Settings.keys) (key : String) (value : Value) :
    ∃ data', value.put [part, key] data = .ok data' ∧ Sectioned data' ∧
      ∀ part' key', data'.at? [part', key'] =
        if [part, key] = [part', key'] then some value else data.at? [part', key'] := by
  obtain ⟨options, scripting, logging, rfl⟩ := sectioned
  rcases (by simpa [Settings.keys] using known :
    part = "options" ∨ part = "scripting" ∨ part = "logging") with rfl | rfl | rfl
  · exact ⟨_, Value.put_pair rfl, ⟨_, _, _, rfl⟩, Value.at?_put_pair rfl⟩
  · exact ⟨_, Value.put_pair rfl, ⟨_, _, _, rfl⟩, Value.at?_put_pair rfl⟩
  · exact ⟨_, Value.put_pair rfl, ⟨_, _, _, rfl⟩, Value.at?_put_pair rfl⟩

namespace Override

/-- The value that an environment gives to an override, if its text can be read. -/
def given? (o : Override) (env : Environment) : Option Value :=
  (o.value? env).bind Except.toOption

/-- An override leads to a place of a section. -/
def Leads (o : Override) : Prop :=
  ∃ part ∈ Settings.keys, ∃ key, KeyPath.ofText o.path = [part, key]

variable {o : Override} {os : List Override} {data : Value}

theorem apply_sectioned (leads : o.Leads) (env : Environment) (sectioned : Sectioned data) :
    (o.apply env data).fault = none ∧ Sectioned (o.apply env data).data ∧
      ∀ part key, (o.apply env data).data.at? [part, key] =
        if KeyPath.ofText o.path = [part, key] then (o.given? env).or (data.at? [part, key])
        else data.at? [part, key] := by
  obtain ⟨part, known, key, path⟩ := leads
  rw [given?, apply]
  cases value : o.value? env with
  | none => exact ⟨rfl, sectioned, fun _ _ => by simp⟩
  | some read =>
    cases read with
    | error fault => exact ⟨rfl, sectioned, fun _ _ => by simp [Except.toOption]⟩
    | ok v =>
      obtain ⟨data', put, sectioned', placed⟩ := sectioned.put known key v
      simp only [path, Value.put_eq_ok.mp put]
      refine ⟨trivial, sectioned', fun part' key' => ?_⟩
      simpa [Except.toOption] using placed part' key'

/-- Overrides with different paths act apart from one another. -/
theorem applyAll_sectioned (lead : ∀ o ∈ os, o.Leads)
    (differ : (os.map fun o => KeyPath.ofText o.path).Nodup) (env : Environment)
    (sectioned : Sectioned data) :
    (applyAll env os data).fault = none ∧ Sectioned (applyAll env os data).data ∧
      ∀ part key, (applyAll env os data).data.at? [part, key] =
        ((os.find? fun o => KeyPath.ofText o.path == [part, key]).bind (·.given? env)).or
          (data.at? [part, key]) := by
  induction os generalizing data with
  | nil => exact ⟨rfl, sectioned, fun _ _ => rfl⟩
  | cons o rest ih =>
    obtain ⟨fresh, differ⟩ := List.nodup_cons.mp differ
    obtain ⟨fine, sectioned', placed⟩ := apply_sectioned (lead o (by simp)) env sectioned
    obtain ⟨done, sectioned'', others⟩ := ih (fun p mem => lead p (by simp [mem])) differ sectioned'
    have unfolded : (applyAll env (o :: rest) data).fault =
        (applyAll env rest (o.apply env data).data).fault ∧
        (applyAll env (o :: rest) data).data =
          (applyAll env rest (o.apply env data).data).data := by
      simp [applyAll, fine]
    rw [unfolded.1, unfolded.2]
    refine ⟨done, sectioned'', fun part key => ?_⟩
    rw [others, placed]
    by_cases here : KeyPath.ofText o.path = [part, key]
    · -- What this override puts there stays, since no later one has its path.
      have absent : rest.find? (fun p => KeyPath.ofText p.path == [part, key]) = none := by
        refine List.find?_eq_none.mpr fun p mem same => fresh ?_
        exact List.mem_map.mpr ⟨p, mem, (eq_of_beq same).trans here.symm⟩
      rw [absent, if_pos here, List.find?_cons, here]
      simp
    · rw [if_neg here, List.find?_cons, beq_false_of_ne here]

theorem paths_of_table : table.map (fun o => KeyPath.ofText o.path) =
    [["options", "wrap"], ["options", "line_break"], ["options", "break_at"],
      ["scripting", "engine"], ["scripting", "max_execution_time"], ["scripting", "enable_print"],
      ["logging", "level"]] := by
  decide

theorem leads_of_mem_table (mem : o ∈ table) : o.Leads := by
  have listed := List.mem_map_of_mem (f := fun o => KeyPath.ofText o.path) mem
  rw [paths_of_table] at listed
  simp only [List.mem_cons, List.not_mem_nil, or_false] at listed
  rcases listed with path | path | path | path | path | path | path
  all_goals exact ⟨_, by decide, _, path⟩

end Override

/-! ## Settings -/

namespace Setting

variable {α : Type}

/-- The override of a setting, if it has one. -/
def override? (s : Setting α) : Option Override :=
  Override.table.find? fun o => KeyPath.ofText o.path == s.path

/-- The value of a setting that an environment gives, if its text can be read. -/
def given? (env : Environment) (s : Setting α) : Option Value :=
  s.override?.bind (·.given? env)

end Setting

/-- After the overrides every setting stands at its place, with the value of the environment or
else with the one that it had. -/
theorem Settings.override_sectioned (base : Settings) (env : Environment) :
    ∃ data, (base.override env).outcome = .ok data ∧ Sectioned data ∧
      ∀ {α : Type} (s : Setting α),
        data.at? s.path = some ((s.given? env).getD (s.toValue (s.value base))) := by
  have differ : (Override.table.map fun o => KeyPath.ofText o.path).Nodup := by
    rw [Override.paths_of_table]
    decide
  obtain ⟨fine, sectioned, placed⟩ := Override.applyAll_sectioned
    (fun o mem => Override.leads_of_mem_table mem) differ env base.toValue_sectioned
  refine ⟨(Override.applyAll env Override.table base.toValue).data, by simp [override, fine],
    sectioned, fun s => ?_⟩
  have there := placed s.part s.key
  have written := s.at?_toValue base
  rw [Setting.path] at written
  rw [written] at there
  rw [Setting.path, there, Setting.given?, Setting.override?, Setting.path]
  cases (Override.table.find? fun o => KeyPath.ofText o.path == [s.part, s.key]).bind
    (·.given? env) <;> rfl

end OptionHost
