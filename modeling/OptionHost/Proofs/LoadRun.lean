import OptionHost.Proofs.Overriding

/-!
# Runs of a load

A load reads the files, writes out what they give, puts the values of the environment over it and
reads the whole again. If it succeeds, every setting was read from the environment or else from the
merged files; and whether it succeeds or not, the loader names no more layers than before.
-/

namespace OptionHost

/-! ## Pieces of loading -/

namespace Loading

variable {α β : Type} {l l' : Loader} {a : α}

theorem bind_apply (first : Loading α) (next : α → Loading β) (l : Loader) :
    (first >>= next) l = ExceptT.bindCont next (first l).1 (first l).2 := rfl

theorem bind_ok {first : Loading α} {next : α → Loading β} {b : β}
    (ok : (first >>= next) l = (.ok b, l')) :
    ∃ a l₁, first l = (.ok a, l₁) ∧ next a l₁ = (.ok b, l') := by
  obtain ⟨outcome, l₁, came⟩ : ∃ outcome l₁, first l = (outcome, l₁) := ⟨_, _, rfl⟩
  rw [bind_apply, came] at ok
  cases outcome with
  | error fault => cases ok
  | ok a => exact ⟨a, l₁, came, ok⟩

theorem ofReport_ok {r : Report α} (ok : ofReport r l = (.ok a, l')) :
    r.outcome = .ok a ∧ l'.paths = l.paths := by
  obtain ⟨outcome, rfl⟩ := Prod.mk.inj ok
  exact ⟨outcome, rfl⟩

theorem within_ok {paths : List String} {act : Loading α}
    (ok : within paths act l = (.ok a, l')) :
    ∃ l₁, act { l with paths := paths } = (.ok a, l₁) ∧ l'.paths = l.paths := by
  obtain ⟨outcome, rfl⟩ := Prod.mk.inj ok
  exact ⟨_, Prod.ext outcome rfl, rfl⟩

theorem attempt_apply (act : Loading α) (l : Loader) :
    attempt act l = (.ok (act l).1, (act l).2) := by
  obtain ⟨outcome, l₁, came⟩ : ∃ outcome l₁, act l = (outcome, l₁) := ⟨_, _, rfl⟩
  simp only [attempt, tryCatch, tryCatchThe, MonadExceptOf.tryCatch, ExceptT.tryCatch, ExceptT.mk,
    bind, ExceptT.bind, StateT.bind, came]
  cases outcome <;> rfl

theorem attempt_ok {act : Loading α} (ok : attempt act l = (.ok (.ok a), l')) :
    act l = (.ok a, l') := by
  rw [attempt_apply] at ok
  obtain ⟨outcome, rfl⟩ := Prod.mk.inj ok
  exact Prod.ext (Except.ok.inj outcome) rfl

/-- A piece of loading leaves the layers of the loader as they were. -/
def Keeps (act : Loading α) : Prop := ∀ l, (act l).2.paths = l.paths

theorem keeps_ofReport (r : Report α) : Keeps (ofReport r) := fun _ => rfl

theorem keeps_within (paths : List String) (act : Loading α) : Keeps (within paths act) :=
  fun l => paths_within paths act l

theorem Keeps.bind {first : Loading α} {next : α → Loading β} (keeps : Keeps first)
    (later : ∀ a, Keeps (next a)) : Keeps (first >>= next) := by
  intro l
  rw [bind_apply, ← keeps l]
  cases (first l).1 with
  | error fault => rfl
  | ok a => exact later a _

theorem Keeps.attempt {act : Loading α} (keeps : Keeps act) : Keeps (attempt act) := by
  intro l
  rw [attempt_apply]
  exact keeps l

end Loading

/-! ## The two checks of a load -/

namespace Layer

/-- Files that are not there are layers without entries, so leaving them out changes nothing. -/
theorem loadAll_present {files : Files} {paths : List String} {layers : List Entries}
    (loads : List.Forall₂ (fun path layer => (load files path).outcome = .ok layer) paths layers) :
    (loadAll files (paths.filter files.contains)).outcome = .ok (Entries.mergeAll layers) := by
  suffices found : ∃ present, ((paths.filter files.contains).mapM (load files)).outcome =
      .ok present ∧ ∀ sofar, present.foldl Entries.merge sofar = layers.foldl Entries.merge sofar by
    obtain ⟨present, outcome, same⟩ := found
    rw [loadAll, Report.outcome_bind, outcome, Entries.mergeAll, ← same]
    rfl
  induction loads with
  | nil => exact ⟨[], rfl, fun _ => rfl⟩
  | @cons path layer paths layers first _ ih =>
    obtain ⟨present, outcome, same⟩ := ih
    by_cases there : files.contains path = true
    · refine ⟨layer :: present, ?_, fun sofar => same _⟩
      rw [List.filter_cons_of_pos there, List.mapM_cons, Report.outcome_bind, first]
      change (_ >>= _ : Report (List Entries)).outcome = _
      rw [Report.outcome_bind, outcome]
      rfl
    · refine ⟨present, by rw [List.filter_cons_of_neg there, outcome], fun sofar => ?_⟩
      have absent : files.get? path = none := by
        simpa [Files.contains] using there
      rw [load, absent] at first
      cases first
      exact same sofar

end Layer

namespace Settings

variable {files : Files} {l l' : Loader} {c : Settings}

theorem build_ok {named : Entries} (ok : build files named l = (.ok c, l')) :
    ∃ layers, (Layer.loadAll files l.paths).outcome = .ok layers ∧
      read (.dict (Entries.merge layers (nameSections named))) = .ok c := by
  obtain ⟨paths, l₁, asked, rest⟩ := Loading.bind_ok ok
  cases asked
  obtain ⟨layers, l₂, loaded, checked⟩ := Loading.bind_ok rest
  exact ⟨layers, (Loading.ofReport_ok loaded).1, (Loading.ofReport_ok checked).1⟩

theorem validate_ok {data : Value} (ok : validate files data l = (.ok c, l'))
    (outside : l.paths = []) :
    read (.dict (Entries.merge [] (nameSections (entriesOf data)))) = .ok c := by
  obtain ⟨attempted, l₁, tried, ok⟩ := Loading.bind_ok ok
  cases attempted with
  | ok s =>
    obtain ⟨_, l₂, _, ok⟩ := Loading.bind_ok ok
    cases ok
    obtain ⟨layers, loaded, read⟩ := build_ok (Loading.attempt_ok tried)
    rw [outside] at loaded
    cases loaded
    exact read
  | error fault =>
    cases fault with
    | invalid title issues =>
      obtain ⟨_, l₂, _, ok⟩ := Loading.bind_ok ok
      cases ok
    | _ => cases ok

theorem build_keeps (files : Files) (named : Entries) : Loading.Keeps (build files named) :=
  .bind (fun _ => rfl) fun _ => .bind (Loading.keeps_ofReport _) fun _ => Loading.keeps_ofReport _

theorem validate_keeps (files : Files) (data : Value) : Loading.Keeps (validate files data) := by
  refine .bind (build_keeps files _).attempt fun attempted => ?_
  split
  · exact .bind (Loading.keeps_ofReport _) fun _ _ => rfl
  · exact .bind (Loading.keeps_ofReport _) fun _ _ => rfl
  · exact fun _ => rfl

/-- No layers are left behind by a load, whether it fails or not. -/
theorem load_keeps (sources : Sources) : Loading.Keeps (load sources) := by
  refine .bind (Loading.keeps_within _ _) fun base => .bind (Loading.keeps_ofReport _) fun _ => ?_
  refine .bind (Loading.keeps_ofReport _) fun env => .bind (Loading.keeps_ofReport _) fun data => ?_
  refine .bind (Loading.keeps_ofReport _) fun text => .bind (Loading.keeps_ofReport _) fun _ => ?_
  exact validate_keeps sources.files data

/-- Data in sections keep them when they are named. -/
theorem nameSections_of_sectioned {data : Value} (sectioned : Sectioned data) :
    nameSections (entriesOf data) = entriesOf data := by
  obtain ⟨options, scripting, logging, rfl⟩ := sectioned
  have lower : "options".toLower = "options" ∧ "scripting".toLower = "scripting" ∧
      "logging".toLower = "logging" := by decide +kernel
  simp [entriesOf, nameSections, namedSection?, sectionOf?, keys, Entries.named?, Entries.get?,
    lower]

/-- Data in sections stand as they are when they are named and laid over nothing. -/
theorem named_of_sectioned {data : Value} (sectioned : Sectioned data) :
    .dict (Entries.merge [] (nameSections (entriesOf data))) = data := by
  rw [nameSections_of_sectioned sectioned]
  obtain ⟨options, scripting, logging, rfl⟩ := sectioned
  rfl

/-- A load that succeeds reads every setting from the environment or else from the layers. What
the layers gave is written out in between, and comes back as it was. -/
theorem load_ok {sources : Sources} {env : Environment} (ok : load sources l = (.ok c, l'))
    (outside : l.paths = []) (extended : sources.extended = .ok env) :
    ∃ layers base, (Layer.loadAll sources.files sources.present).outcome = .ok layers ∧
      read (.dict layers) = .ok base ∧ c.options.rule? = none ∧
      ∀ {α : Type} (s : Setting α),
        s.readFrom ((s.given? env).or ((Value.dict layers).at? s.path)) = .ok (s.value c) := by
  obtain ⟨base, l₁, built, rest⟩ := Loading.bind_ok ok
  obtain ⟨_, l₂, first, rest⟩ := Loading.bind_ok rest
  obtain ⟨env', l₃, environment, rest⟩ := Loading.bind_ok rest
  obtain ⟨data, l₄, overridden, rest⟩ := Loading.bind_ok rest
  obtain ⟨text, l₅, written, rest⟩ := Loading.bind_ok rest
  obtain ⟨_, l₆, last, rest⟩ := Loading.bind_ok rest
  obtain ⟨l₀, within, paths₁⟩ := Loading.within_ok built
  obtain ⟨layers, loaded, reading⟩ := build_ok within
  obtain ⟨-, paths₂⟩ := Loading.ofReport_ok first
  obtain ⟨same, paths₃⟩ := Loading.ofReport_ok environment
  obtain ⟨outcome, paths₄⟩ := Loading.ofReport_ok overridden
  obtain ⟨-, paths₅⟩ := Loading.ofReport_ok written
  obtain ⟨-, paths₆⟩ := Loading.ofReport_ok last
  obtain rfl : env' = env := Except.ok.inj (same.symm.trans extended)
  obtain ⟨data', outcome', sectioned, placed⟩ := override_sectioned base env'
  obtain rfl : data = data' := Except.ok.inj (outcome.symm.trans outcome')
  have final := validate_ok rest (by rw [paths₆, paths₅, paths₄, paths₃, paths₂, paths₁, outside])
  rw [named_of_sectioned sectioned] at final
  obtain ⟨_, _, _, rfl⟩ := sectioned
  refine ⟨layers, base, loaded, reading, read_rule final, fun s => ?_⟩
  have below := s.readFrom_at? reading
  have above := s.readFrom_at? final
  rw [placed] at above
  -- The second check reads the value of the environment, or what the first one had written out.
  cases given : s.given? env' with
  | none =>
    rw [given] at above
    have again : s.value base = s.value c := Except.ok.inj ((s.read_toValue below).symm.trans above)
    rw [← again]
    exact below
  | some v =>
    rw [given] at above
    exact above

end Settings

end OptionHost
