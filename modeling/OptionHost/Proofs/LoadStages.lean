import OptionHost.Proofs.LoadRun

/-!
# The stages of a load

What comes of a load is what two checks make of it. The first reads what the files give, without
the environment; the second reads the same settings with the values of the environment in their
places. In between nothing can fail but the reading of the environment file.
-/

namespace OptionHost

/-! ## Pieces of loading in turn -/

namespace Loading

variable {α β : Type} {l : Loader}

theorem outcome_bind (first : Loading α) (next : α → Loading β) (l : Loader) :
    ((first >>= next) l).1 = (first l).1 >>= fun a => (next a (first l).2).1 := by
  rw [bind_apply]
  cases (first l).1 <;> rfl

theorem bind_of_ok {first : Loading α} {next : α → Loading β} {a : α} {l' : Loader}
    (came : first l = (.ok a, l')) : (first >>= next) l = next a l' := by
  rw [bind_apply, came]
  rfl

theorem bind_of_error {first : Loading α} {next : α → Loading β} {fault : Fault} {l' : Loader}
    (failed : first l = (.error fault, l')) : (first >>= next) l = (.error fault, l') := by
  rw [bind_apply, failed]
  rfl

theorem ofReport_bind {r : Report α} {a : α} (came : r.outcome = .ok a) (next : α → Loading β) :
    (ofReport r >>= next) l = next a { l with records := l.records ++ r.records } :=
  bind_of_ok (by rw [ofReport, came])

theorem ofExcept_apply (e : Except Fault α) (l : Loader) : ofExcept e l = (e, l) := by
  rw [ofExcept, ofReport, Report.ofExcept, List.append_nil]

end Loading

/-! ## Writing data out -/

theorem Except.mapM_ok {ε α β : Type} {f : α → Except ε β} {items : List α}
    (fine : ∀ a ∈ items, ∃ b, f a = .ok b) : ∃ bs, items.mapM f = .ok bs := by
  induction items with
  | nil => exact ⟨[], rfl⟩
  | cons a rest ih =>
    obtain ⟨b, first⟩ := fine a (by simp)
    obtain ⟨bs, others⟩ := ih fun a mem => fine a (by simp [mem])
    exact ⟨b :: bs, by rw [List.mapM_cons, first, others]; rfl⟩

/-- A floating-point number, a truth value or a text: what can be written at any length. -/
def Value.isScalar : Value → Bool
  | .bool _ | .float _ | .text _ => true
  | _ => false

theorem TextKind.scalar_of_read {kind : TextKind} {text : String} {v : Value}
    (other : kind ≠ .integer) (ok : kind.read text = .ok v) : v.isScalar = true := by
  cases kind with
  | text =>
    cases ok
    rfl
  | integer => exact absurd rfl other
  | float | bool =>
    obtain ⟨_, _, rfl⟩ := Except.map_eq_ok ok
    rfl

theorem Override.kind_of_table : ∀ o ∈ Override.table, o.kind ≠ .integer := by decide

namespace Json

variable {style : Style}

theorem number_ok (lax : style.allowNan = true) (x : Binary64) : ∃ s, style.number x = .ok s := by
  simp only [Style.number, lax, if_true]
  split <;> exact ⟨_, rfl⟩

theorem render_scalar {v : Value} (lax : style.allowNan = true) (scalar : v.isScalar = true)
    (level : Nat) : ∃ s, render style level v = .ok s := by
  cases v with
  | float x => exact number_ok lax x
  | bool _ | text _ => exact ⟨_, rfl⟩
  | _ => cases scalar

theorem renderEntries_eq (entries : Entries) (level : Nat) : renderEntries style level entries =
    entries.map fun e => (e.1, render style level e.2) := by
  induction entries with
  | nil => rfl
  | cons e rest ih =>
    obtain ⟨k, v⟩ := e
    rw [List.map_cons, ← ih]
    rfl

/-- A mapping of texts can be written if all its values can. -/
theorem render_dict {entries : Entries} {level : Nat} (unsorted : style.sortKeys = false)
    (texts : ∀ e ∈ entries, e.1.isText = true)
    (values : ∀ e ∈ entries, ∃ s, render style (level + 1) e.2 = .ok s) :
    ∃ s, render style level (.dict entries) = .ok s := by
  have items : ∃ items, (renderEntries style (level + 1) entries).mapM
      (fun e => style.entry e.1 e.2) = .ok items := by
    refine Except.mapM_ok fun e mem => ?_
    rw [renderEntries_eq] at mem
    obtain ⟨⟨k, v⟩, there, rfl⟩ := List.mem_map.mp mem
    obtain ⟨s, value⟩ := values _ there
    have named := texts _ there
    cases k with
    | text name => exact ⟨_, by simp only [Style.entry, Style.key, value]; rfl⟩
    | _ => cases named
  obtain ⟨items, written⟩ := items
  rw [render, Style.object, unsorted]
  split
  · exact ⟨_, rfl⟩
  · exact ⟨_, by
      simp only [Bool.false_eq_true, if_false, pure_bind, written]
      rfl⟩

end Json

/-! ## Data with a value for every setting -/

namespace Settings

/-- The data that have a value for every setting, in the order in which settings are written. -/
def document (value : ∀ {α : Type}, Setting α → Value) : Value :=
  .dict [
    (.text "options", .dict [(.text "wrap", value .wrap), (.text "line_break", value .lineBreak),
      (.text "break_at", value .breakAt), (.text "break_at_classes", value .classes)]),
    (.text "scripting", .dict [(.text "engine", value .engine),
      (.text "max_execution_time", value .limit), (.text "enable_print", value .printing),
      (.text "enable_debug", value .echoing)]),
    (.text "logging", .dict [(.text "level", value .level)])]

variable {value : ∀ {α : Type}, Setting α → Value}

theorem toValue_eq (c : Settings) : c.toValue = document fun s => s.toValue (s.value c) := rfl

theorem at?_document {α : Type} (s : Setting α) : (document value).at? s.path = some (value s) := by
  cases s <;> rfl

theorem document_sectioned : Sectioned (document value) := ⟨_, _, _, rfl⟩

/-- A value written at the path of an override leaves data with a value for every setting. -/
theorem write_document {o : Override} (listed : o ∈ Override.table) (v : Value) :
    (v.write (KeyPath.ofText o.path) (document value)).data =
      document fun s => if s.path = KeyPath.ofText o.path then v else value s := by
  have path := List.mem_map_of_mem (f := fun o => KeyPath.ofText o.path) listed
  rw [Override.paths_of_table] at path
  simp only [List.mem_cons, List.not_mem_nil, or_false] at path
  rcases path with path | path | path | path | path | path | path
  all_goals
    rw [path]
    rfl

end Settings

theorem Override.applyAll_keeps {P : Value → Prop} {os : List Override} {data : Value}
    {env : Environment}
    (write : ∀ o ∈ os, ∀ v data : Value, P data → P (v.write (KeyPath.ofText o.path) data).data)
    (holds : P data) : P (applyAll env os data).data := by
  induction os generalizing data with
  | nil => exact holds
  | cons o rest ih =>
    have first : P (o.apply env data).data := by
      rw [apply]
      split
      next => exact holds
      next => exact holds
      next v _ => exact write o (by simp) v data holds
    rw [applyAll]
    split
    next => exact first
    next => exact ih (fun o mem => write o (by simp [mem])) first

namespace Settings

/-- Settings with the values of an environment in their places. -/
def overridden (env : Environment) (base : Settings) : Value :=
  document fun s => (s.given? env).getD (s.toValue (s.value base))

theorem override_eq (base : Settings) (env : Environment) :
    (base.override env).outcome = .ok (base.overridden env) := by
  obtain ⟨data, outcome, -, placed⟩ := base.override_sectioned env
  have laid : ∃ value : ∀ {α : Type}, Setting α → Value,
      (Override.applyAll env Override.table base.toValue).data = document value := by
    refine Override.applyAll_keeps (P := fun data => ∃ value : ∀ {α : Type}, Setting α → Value,
      data = document value) ?_ ⟨_, base.toValue_eq⟩
    rintro o listed v _ ⟨value, rfl⟩
    exact ⟨_, write_document listed v⟩
  obtain ⟨value, laid⟩ := laid
  have same : data = document value := by
    rw [override] at outcome
    split at outcome
    · cases outcome
    · exact (Except.ok.inj outcome).symm.trans laid
  rw [outcome, overridden, same]
  have filled : @value = fun {α : Type} s => (s.given? env).getD (s.toValue (s.value base)) := by
    funext α s
    have there := placed s
    rw [same, at?_document] at there
    exact Option.some.inj there
  rw [filled]

theorem render_setting {α : Type} {style : Json.Style} (lax : style.allowNan = true)
    (unsorted : style.sortKeys = false) (env : Environment) (s : Setting α) (a : α) (level : Nat) :
    ∃ text, Json.render style level ((s.given? env).getD (s.toValue a)) = .ok text := by
  cases given : s.given? env with
  | some v =>
    obtain ⟨o, found, given⟩ := Option.bind_eq_some_iff.mp given
    have other := Override.kind_of_table o (List.mem_of_find?_eq_some found)
    obtain ⟨read, value, ok⟩ := Option.bind_eq_some_iff.mp given
    obtain ⟨text, _, rfl⟩ := Option.map_eq_some_iff.mp value
    exact Json.render_scalar lax (TextKind.scalar_of_read other (Except.toOption_eq_some.mp ok))
      level
  | none =>
    cases s with
    | classes =>
      refine Json.render_dict unsorted ?_ ?_
      · rintro e mem
        obtain ⟨c, _, rfl⟩ := List.mem_map.mp mem
        rfl
      · rintro e mem
        obtain ⟨c, _, rfl⟩ := List.mem_map.mp mem
        exact ⟨_, rfl⟩
    | _ => exact Json.render_scalar lax rfl level

/-- The data between the two checks can always be written out. -/
theorem write_overridden (style : Json.Style) (lax : style.allowNan = true)
    (unsorted : style.sortKeys = false) (env : Environment) (base : Settings) :
    ∃ text, Json.write style (base.overridden env) = .ok text := by
  have setting : ∀ {α : Type} (s : Setting α) (level : Nat), ∃ text,
      Json.render style level ((s.given? env).getD (s.toValue (s.value base))) = .ok text :=
    fun s level => render_setting lax unsorted env s _ level
  obtain ⟨text, written⟩ : ∃ text, Json.render style 0 (base.overridden env) = .ok text := by
    refine Json.render_dict unsorted (by simp [Value.isText]) ?_
    simp only [List.mem_cons, List.not_mem_nil, or_false, forall_eq_or_imp, forall_eq]
    refine ⟨?_, ?_, ?_⟩
    all_goals
      refine Json.render_dict unsorted (by simp [Value.isText]) ?_
      simp only [List.mem_cons, List.not_mem_nil, or_false, forall_eq_or_imp, forall_eq]
      simp only [setting, and_self]
  exact ⟨String.ofList text, by rw [Json.write, written]; rfl⟩

/-! ## The two checks -/

/-- Settings, or the refusal of what was to be read as such. -/
def Verdict (outcome : Except Fault Settings) : Prop :=
  (∃ c, outcome = .ok c) ∨ ∃ title issues, outcome = .error (.invalid title issues)

/-- A document whose keys are texts is accepted or refused. -/
theorem read_verdict {root : Entries} (texts : (root.any fun e => !e.1.isText) = false) :
    Verdict (read (.dict root)) := by
  rw [read, if_neg (by simp [texts])]
  cases readEntries root with
  | ok c => exact .inl ⟨c, rfl⟩
  | error issues => exact .inr ⟨title, issues, rfl⟩

/-- What the files of some sources give on their own. -/
def Sources.ofFiles (sources : Sources) : Except Fault Settings :=
  (Layer.loadAll sources.files sources.present).outcome >>= fun layers => read (.dict layers)

theorem build_outcome (files : Files) (named : Entries) (l : Loader) : (build files named l).1 =
    (Layer.loadAll files l.paths).outcome >>= fun layers =>
      read (.dict (Entries.merge layers (nameSections named))) := by
  rw [build, Loading.outcome_bind]
  change ((Loading.ofReport (Layer.loadAll files l.paths) >>= _) l).1 = _
  rw [Loading.outcome_bind]
  rfl

/-- The first check is of what the files give on their own. -/
theorem first_check_outcome (sources : Sources) (l : Loader) :
    (Loading.within sources.present (build sources.files []) l).1 = sources.ofFiles :=
  build_outcome sources.files [] { l with paths := sources.present }

theorem validate_outcome {l : Loader} {data : Value} (files : Files) (outside : l.paths = [])
    (sectioned : Sectioned data) : (validate files data l).1 = read data := by
  have built : (build files (entriesOf data) l).1 = read data := by
    rw [build_outcome, outside]
    exact congrArg read (named_of_sectioned sectioned)
  rw [validate, Loading.outcome_bind, Loading.attempt_apply, built]
  cases read data with
  | ok c => rfl
  | error fault => cases fault <;> rfl

variable {s : Sources} {base : Settings} {env : Environment} {fault : Fault} {l l₁ : Loader}

theorem load_refused
    (first : Loading.within s.present (build s.files []) l = (.error fault, l₁)) :
    load s l = (.error fault, l₁) :=
  Loading.bind_of_error first

theorem load_unextended (first : Loading.within s.present (build s.files []) l = (.ok base, l₁))
    (failed : s.extended = .error fault) :
    load s l = (.error fault, { l₁ with records := l₁.records ++ [builtRecord s.present] }) := by
  rw [load, Loading.bind_of_ok first, Loading.say, Loading.ofReport_bind rfl, failed,
    Loading.bind_of_error (Loading.ofExcept_apply _ _)]
  rfl

/-- Behind the first check nothing but the environment file can keep a load from the second one. -/
theorem load_behind (first : Loading.within s.present (build s.files []) l = (.ok base, l₁))
    (extended : s.extended = .ok env) : ∃ written, load s l =
      validate s.files (base.overridden env) { l₁ with records := l₁.records ++ written } := by
  obtain ⟨text, written⟩ := write_overridden (.indented 2) rfl rfl env base
  refine ⟨[builtRecord s.present] ++ (base.override env).records ++ [finalRecord text], ?_⟩
  rw [load, Loading.bind_of_ok first, Loading.say, Loading.ofReport_bind rfl, Loading.ofExcept,
    Loading.ofReport_bind extended, Loading.ofReport_bind (override_eq base env),
    Loading.ofExcept, Loading.ofReport_bind written, Loading.say, Loading.ofReport_bind rfl]
  simp [Report.say, Report.ofExcept]

/-- Between loads, as `load_keeps` says, a loader names no layers. What then comes of a load is
what the files give on their own, read once more with the environment in its places. -/
theorem load_outcome (sources : Sources) (outside : l.paths = []) :
    (load sources l).1 = (do
      let base ← sources.ofFiles
      let env ← sources.extended
      read (base.overridden env)) := by
  obtain ⟨l₁, first, kept⟩ : ∃ l₁, Loading.within sources.present (build sources.files []) l =
      (sources.ofFiles, l₁) ∧ l₁.paths = l.paths :=
    ⟨_, Prod.ext (first_check_outcome sources l) rfl, rfl⟩
  cases files : sources.ofFiles with
  | error fault =>
    rw [load_refused (files ▸ first)]
    rfl
  | ok base =>
    rw [files] at first
    cases extended : sources.extended with
    | error fault =>
      rw [load_unextended first extended]
      rfl
    | ok env =>
      obtain ⟨written, ended⟩ := load_behind first extended
      rw [ended]
      exact validate_outcome sources.files (kept.trans outside) document_sectioned

end Settings

end OptionHost
