import OptionHost.Proofs.LoadRun
import OptionHost.Proofs.ProperDocuments

/-!
# Which layer decides

Four layers give the settings of a host: the built-in values, two files and the environment. Every
setting has the value of the highest layer that gives it one. Only the classes are put together, of
both files, and then nothing of the built-in ones is left.
-/

namespace OptionHost

/-! ## One layer over another -/

theorem Value.laidOver_plain {v : Value} (plain : v.isDict = false) (below : Option Value) :
    v.laidOver below = v := by
  cases v <;> first | rfl | cases plain

theorem Value.exists_dict {v : Value} (mapping : ¬v.isDict = false) :
    ∃ entries : Entries, v = .dict entries := by
  cases v <;> first | exact ⟨_, rfl⟩ | exact absurd rfl mapping

/-- The entries at a place, none where there is no mapping. -/
def Entries.found (there : Option Value) : Entries := Settings.entriesOf (there.getD .null)

/-- A mapping is laid over another one entry by entry, and over anything else as it is. -/
theorem Value.laidOver_dict (upper : Entries) (below : Option Value) :
    (∃ lower, below = some (.dict lower) ∧
        (Value.dict upper).laidOver below = .dict (Entries.merge lower upper)) ∨
      Entries.found below = [] ∧ (Value.dict upper).laidOver below = .dict upper := by
  cases below with
  | none => exact .inr ⟨rfl, rfl⟩
  | some v =>
    cases v with
    | dict lower => exact .inl ⟨lower, rfl, rfl⟩
    | _ => exact .inr ⟨rfl, rfl⟩

/-- A mapping that two layers give at one place, with the entries that each of them has there. -/
theorem Entries.found_laidOver {above below : Option Value} {table : Entries}
    (properAbove : ∀ v, above = some v → v.Proper) (properBelow : ∀ v, below = some v → v.Proper)
    (given : (above.map (·.laidOver below)).or below = some (.dict table)) :
    table.KeysDiffer ∧
      (∀ e ∈ table, (∃ v, (e.1, v) ∈ found below) ∨ ∃ v, (e.1, v) ∈ found above) ∧
      ∀ name, table.named? name =
        (((found above).named? name).map (·.laidOver ((found below).named? name))).or
          ((found below).named? name) := by
  cases above with
  | none =>
    obtain rfl : below = some (.dict table) := given
    exact ⟨(properBelow _ rfl).differ, fun e mem => .inl ⟨e.2, mem⟩, fun _ => rfl⟩
  | some v =>
    replace given := Option.some.inj given
    cases v with
    | dict own =>
      have differ := (properAbove _ rfl).differ
      rcases Value.laidOver_dict own below with ⟨lower, rfl, same⟩ | ⟨none, same⟩
      · obtain rfl : merge lower own = table := Value.dict.inj (same.symm.trans given)
        exact ⟨(properBelow _ rfl).differ.merge, fun e mem => mem_merge mem,
          fun name => named?_merge differ lower name⟩
      · obtain rfl : own = table := Value.dict.inj (same.symm.trans given)
        refine ⟨differ, fun e mem => .inr ⟨e.2, mem⟩, fun name => ?_⟩
        rw [none]
        simp [found, Settings.entriesOf, named?, get?]
    | _ =>
      have plain := (Value.laidOver_plain rfl _).symm.trans given
      cases plain

theorem Reader.text_laidOver (v : Value) (below : Option Value) :
    text (v.laidOver below) = text v := by
  cases v with
  | dict upper =>
    rcases Value.laidOver_dict upper below with ⟨_, _, same⟩ | ⟨_, same⟩
    · exact (congrArg text same).trans rfl
    · exact congrArg text same
  | _ => rfl

namespace Setting

variable {α : Type}

/-- Whether a setting is a mapping, which layers add to. -/
def isTable : Setting α → Bool
  | classes => true
  | _ => false

theorem read_laidOver {v : Value} {below : Option Value} {a : α} (s : Setting α)
    (single : s.isTable = false) (ok : s.read (v.laidOver below) = .ok a) : s.read v = .ok a := by
  by_cases plain : v.isDict = false
  · rwa [Value.laidOver_plain plain] at ok
  · obtain ⟨upper, rfl⟩ := Value.exists_dict plain
    obtain ⟨merged, same⟩ : ∃ merged, (Value.dict upper).laidOver below = .dict merged := by
      rcases Value.laidOver_dict upper below with ⟨_, _, same⟩ | ⟨_, same⟩ <;> exact ⟨_, same⟩
    rw [same] at ok
    cases s <;> first | cases ok | cases single

/-- What the layers have for a setting: the value of the environment, or else that of the upper
file, or else that of the lower file unless something else than a mapping replaces its section. -/
def source? (env : Environment) (lower upper : Entries) (s : Setting α) : Option Value :=
  (s.given? env).or (((Value.dict upper).at? s.path).or (lower.beneath upper s.part s.key))

end Setting

/-- The table of classes in a layer, without entries if there is none. -/
def Layer.classes (layer : Entries) : Entries :=
  .found ((Value.dict layer).at? Setting.classes.path)

/-- Settings that come of the built-in values, two layers and an environment. -/
structure Settings.Layered (env : Environment) (lower upper : Entries) (c : Settings) : Prop where
  /-- A setting that is no table is what the highest layer with a value for it says. -/
  single : ∀ {α : Type} (s : Setting α), s.isTable = false →
    s.readFrom (s.source? env lower upper) = .ok (s.value c)
  /-- Without any table in the files the classes are the built-in ones. -/
  builtin : (Value.dict lower).at? Setting.classes.path = none →
    (Value.dict upper).at? Setting.classes.path = none →
    c.options.classes = OptionSettings.builtinClasses
  /-- Otherwise they are those of both tables and no others, the upper one winning by name. -/
  united : ((Value.dict lower).at? Setting.classes.path).isSome ∨
      ((Value.dict upper).at? Setting.classes.path).isSome →
    ∀ name, (c.options.classes.lookup name).map .ok =
      (((Layer.classes upper).named? name).or ((Layer.classes lower).named? name)).map Reader.text
  /-- No class is in the table twice. -/
  distinct : (c.options.classes.map Prod.fst).Nodup
  known : Settings.Known (Entries.mergeAll [lower, upper])
  selected : ∃ chars, c.options.classes.lookup c.options.breakAt = some chars ∧ chars ≠ ""

namespace Settings

variable {lower upper : Entries} {c : Settings}

/-- What the files have for a setting, the upper one over what shows from the lower one. -/
theorem at?_mergeAll {α : Type} (properLower : (Value.dict lower).Proper)
    (properUpper : (Value.dict upper).Proper) (s : Setting α) :
    (Value.dict (Entries.mergeAll [lower, upper])).at? s.path =
      (((Value.dict upper).at? s.path).map (·.laidOver (lower.beneath upper s.part s.key))).or
        (lower.beneath upper s.part s.key) := by
  have bottom : (Value.dict (Entries.merge [] lower)).at? [s.part, s.key] =
      (Value.dict lower).at? [s.part, s.key] := by
    rw [Entries.at?_pair, Entries.at?_pair, Entries.named?_merge properLower.differ]
    cases lower.named? s.part <;> simp [Entries.named?, Entries.get?]
  have merged := Entries.at?_merge properUpper (Entries.merge [] lower) s.part s.key
  rw [Entries.beneath, bottom] at merged
  exact merged

/-- A section that was read is nowhere replaced by something else than a mapping. -/
theorem blocks_of_known {part : String} (properUpper : (Value.dict upper).Proper)
    (known : Known (Entries.mergeAll [lower, upper])) : upper.blocks part = false := by
  rw [Entries.blocks]
  cases above : upper.named? part with
  | none => rfl
  | some v =>
    have merged : (Entries.mergeAll [lower, upper]).named? part =
        some (v.laidOver ((Entries.merge [] lower).named? part)) := by
      have there := Entries.named?_merge properUpper.differ (Entries.merge [] lower) part
      rw [above] at there
      exact there
    obtain ⟨_, _, _, entries, dict, _⟩ := known _ (Entries.mem_of_named? merged)
    cases v with
    | dict _ => rfl
    | _ => cases dict

/-- The texts of the classes in two layers, by name. -/
theorem united_of_table {table : Entries} {classes : List (String × String)}
    (properLower : (Value.dict lower).Proper) (properUpper : (Value.dict upper).Proper)
    (texts : ∀ layer ∈ [lower, upper], ∀ e ∈ Layer.classes layer, e.1.isText = true)
    (found : (((Value.dict upper).at? Setting.classes.path).map
        (·.laidOver ((Value.dict lower).at? Setting.classes.path))).or
          ((Value.dict lower).at? Setting.classes.path) = some (.dict table))
    (ok : Reader.textDict (.dict table) = .ok classes) (name : String) :
    (classes.lookup name).map .ok =
      (((Layer.classes upper).named? name).or ((Layer.classes lower).named? name)).map
        Reader.text := by
  obtain ⟨differ, keys, named⟩ := Entries.found_laidOver
    (fun _ there => properUpper.at? there) (fun _ there => properLower.at? there) found
  have textual : ∀ e ∈ table, e.1.isText = true := by
    intro e mem
    rcases keys e mem with ⟨v, there⟩ | ⟨v, there⟩
    · exact texts lower (by simp) (e.1, v) there
    · exact texts upper (by simp) (e.1, v) there
  rw [← Reader.textDict_lookup differ textual ok name, named, Layer.classes, Layer.classes]
  cases (Entries.found ((Value.dict upper).at? Setting.classes.path)).named? name with
  | none => rfl
  | some v => exact congrArg some (Reader.text_laidOver v _)

/-- A setting that is no table takes nothing from beneath a value. -/
theorem readFrom_source {α : Type} {env : Environment} {a : α}
    (properLower : (Value.dict lower).Proper) (properUpper : (Value.dict upper).Proper)
    (s : Setting α) (single : s.isTable = false)
    (ok : s.readFrom ((s.given? env).or
      ((Value.dict (Entries.mergeAll [lower, upper])).at? s.path)) = .ok a) :
    s.readFrom (s.source? env lower upper) = .ok a := by
  rw [at?_mergeAll properLower properUpper] at ok
  rw [Setting.source?]
  cases given : s.given? env with
  | some v => rwa [given] at ok
  | none =>
    rw [given] at ok
    cases above : (Value.dict upper).at? s.path with
    | none => rwa [above] at ok
    | some v =>
      rw [above] at ok
      exact s.read_laidOver single ok

/-- Every setting is decided by the highest layer that has a value for it, and the classes by all
files together. Between loads, as `load_keeps` says, a loader names no layers. -/
theorem load_layered {files : Files} {env : Environment} {lowerPath upperPath : String}
    {lower upper : Entries} {l l' : Loader} {c : Settings}
    (outside : l.paths = []) (told : Layer.Told files)
    (lowerLayer : (Layer.load files lowerPath).outcome = .ok lower)
    (upperLayer : (Layer.load files upperPath).outcome = .ok upper)
    (texts : ∀ layer ∈ [lower, upper], ∀ e ∈ Layer.classes layer, e.1.isText = true)
    (ok : load ⟨files, env, [lowerPath, upperPath], false⟩ l = (.ok c, l')) :
    Layered env lower upper c := by
  have properLower := Layer.load_proper told lowerLayer
  have properUpper := Layer.load_proper told upperLayer
  obtain ⟨layers, base, loaded, reading, rule, decided⟩ := load_ok ok outside rfl
  have present := Layer.loadAll_present (.cons lowerLayer (.cons upperLayer .nil))
  obtain rfl : Entries.mergeAll [lower, upper] = layers :=
    Except.ok.inj (present.symm.trans loaded)
  have known : Known (Entries.mergeAll [lower, upper]) :=
    read_known (Entries.KeysDiffer.merge (Entries.KeysDiffer.merge .nil)) reading
  have classes := decided Setting.classes
  have unset : Setting.classes.given? env = none := by
    rw [Setting.given?, show Setting.classes.override? = none by decide]
    rfl
  have shown : lower.beneath upper Setting.classes.part Setting.classes.key =
      (Value.dict lower).at? Setting.classes.path := by
    rw [Entries.beneath, blocks_of_known properUpper known]
    rfl
  rw [unset, Option.none_or, at?_mergeAll properLower properUpper, shown] at classes
  refine ⟨fun s single => ?_, fun noneLower noneUpper => ?_, fun some name => ?_, ?_, known,
    OptionSettings.selected_of_rule rule⟩
  · exact readFrom_source properLower properUpper s single (decided s)
  · rw [noneUpper, noneLower] at classes
    exact (Except.ok.inj classes).symm
  · cases found : (((Value.dict upper).at? Setting.classes.path).map
        (·.laidOver ((Value.dict lower).at? Setting.classes.path))).or
          ((Value.dict lower).at? Setting.classes.path) with
    | none => simp_all
    | some v =>
      rw [found] at classes
      obtain ⟨table, _, rfl, -, -⟩ := Reader.textDict_ok classes
      exact united_of_table properLower properUpper texts found classes name
  · exact Setting.names_of_classes classes

/-- A file that gives a wrapping, two classes and a limit. -/
def shippedLayer : Entries :=
  [(.text "options", .dict [(.text "wrap", .bool false),
      (.text "break_at_classes", .dict [(.text "ascii", .text "-"), (.text "wide", .text "x")])]),
    (.text "scripting", .dict [(.text "max_execution_time", .int 10)])]

/-- A file that selects a class and gives it other characters. -/
def operatorLayer : Entries :=
  [(.text "options", .dict [(.text "break_at", .text "wide"),
    (.text "break_at_classes", .dict [(.text "wide", .text "yz")])])]

def twoFiles : Files :=
  [("defaults.yaml", .document (.dict shippedLayer)),
    ("config.yaml", .document (.dict operatorLayer))]

/-- An environment with a text that cannot be read and one that can. -/
def twoVariables : Environment :=
  [("EDITOR_WRAP", "maybe"), ("EDITOR_SCRIPT_MAX_EXECUTION_TIME", "2.5")]

theorem load_layered_twoFiles :
    ∃ c l', load ⟨twoFiles, twoVariables, usualPaths, false⟩ .start = (.ok c, l') ∧
      Layered twoVariables shippedLayer operatorLayer c := by
  have loads : (load ⟨twoFiles, twoVariables, usualPaths, false⟩ .start).1.toOption.isSome := by
    decide +kernel
  generalize came : load ⟨twoFiles, twoVariables, usualPaths, false⟩ .start = result at loads
  obtain ⟨outcome, l'⟩ := result
  cases outcome with
  | error fault => cases loads
  | ok c =>
    have shipped : (Value.dict shippedLayer).Proper := by
      simp [shippedLayer, Value.proper_dict, Entries.KeysDiffer]
      exact ⟨⟨.plain rfl, .plain rfl, .plain rfl⟩, .plain rfl⟩
    have operator : (Value.dict operatorLayer).Proper := by
      simp [operatorLayer, Value.proper_dict, Entries.KeysDiffer]
      exact ⟨.plain rfl, .plain rfl⟩
    have told : Layer.Told twoFiles := by
      intro path content found
      simp only [Files.get?, twoFiles, List.lookup_cons] at found
      split at found
      · cases found
        exact shipped
      · split at found
        · cases found
          exact operator
        · cases found
    have lowerLayer : (Layer.load twoFiles "defaults.yaml").outcome = .ok shippedLayer := rfl
    have upperLayer : (Layer.load twoFiles "config.yaml").outcome = .ok operatorLayer := rfl
    have texts : ∀ layer ∈ [shippedLayer, operatorLayer], ∀ e ∈ Layer.classes layer,
        e.1.isText = true := by
      decide
    exact ⟨c, l', rfl, load_layered rfl told lowerLayer upperLayer texts came⟩

end Settings

end OptionHost
