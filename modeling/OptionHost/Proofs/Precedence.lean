import OptionHost.Proofs.Agreement
import OptionHost.Proofs.LoadStages

/-!
# How far an environment decides

A value of the environment replaces what the files have at its path, but only behind the first
check, which reads the files without it. So two sets of files that say the same but for that value
give the same settings once both are accepted on their own. Otherwise the value that was to be
replaced may still decide whether there are settings at all.
-/

namespace OptionHost

theorem Report.outcome_mapM {α β : Type} (f : α → Report β) (items : List α) :
    (items.mapM f).outcome = items.mapM fun a => (f a).outcome := by
  induction items with
  | nil => rfl
  | cons a rest ih =>
    rw [List.mapM_cons, List.mapM_cons, outcome_bind, ← ih]
    congr 1
    funext b
    rw [outcome_bind]
    rfl

/-! ## Files that agree but for one place -/

namespace Layer

variable {part key : String} {files others : Files} {paths : List String}

/-- The layers of several files laid over a mapping. -/
def loadOver (files : Files) (sofar : Entries) (paths : List String) : Except Fault Entries :=
  (paths.mapM fun path => (load files path).outcome).map (List.foldl Entries.merge sofar)

theorem loadAll_outcome (files : Files) (paths : List String) :
    (loadAll files paths).outcome = loadOver files [] paths := by
  rw [loadAll, Report.outcome_bind, Report.outcome_mapM]
  rfl

theorem loadOver_cons (files : Files) (sofar : Entries) (path : String) (rest : List String) :
    loadOver files sofar (path :: rest) =
      (load files path).outcome >>= fun layer => loadOver files (sofar.merge layer) rest := by
  rw [loadOver, List.mapM_cons]
  cases (load files path).outcome with
  | error fault => rfl
  | ok layer =>
    change (_ >>= _ : Except Fault (List Entries)).map _ = loadOver files _ rest
    rw [loadOver]
    cases rest.mapM fun path => (load files path).outcome <;> rfl

/-- Files that are not there are layers without entries, so leaving them out changes nothing. -/
theorem loadOver_filter (files : Files) (sofar : Entries) (paths : List String) :
    loadOver files sofar (paths.filter files.contains) = loadOver files sofar paths := by
  induction paths generalizing sofar with
  | nil => rfl
  | cons path rest ih =>
    by_cases there : files.contains path = true
    · rw [List.filter_cons_of_pos there, loadOver_cons, loadOver_cons]
      exact congrArg _ (funext fun layer => ih (sofar.merge layer))
    · have absent : files.get? path = none := by simpa [Files.contains] using there
      have empty : (load files path).outcome = .ok [] := by
        rw [load, absent]
        rfl
      rw [List.filter_cons_of_neg there, loadOver_cons, empty, ih]
      rfl

/-- Files that give layers agreeing but at a place, or that fail alike. -/
inductive AgreeBut (part key : String) : Except Fault Entries → Except Fault Entries → Prop
  | ok {a b : Entries} (agree : a.AgreeBut part key b) : AgreeBut part key (.ok a) (.ok b)
  | error (fault : Fault) : AgreeBut part key (.error fault) (.error fault)

/-- Merged files say the same but for the place if each two of them do. -/
theorem loadOver_agree (told : Told files) (told' : Told others)
    (agree : ∀ path ∈ paths, AgreeBut part key (load files path).outcome (load others path).outcome)
    {a b : Entries} (below : Entries.SameBut part key a b) :
    (∃ fault, loadOver files a paths = .error fault ∧ loadOver others b paths = .error fault) ∨
      ∃ c d, loadOver files a paths = .ok c ∧ loadOver others b paths = .ok d ∧
        Entries.SameBut part key c d := by
  induction paths generalizing a b with
  | nil => exact .inr ⟨a, b, rfl, rfl, below⟩
  | cons path rest ih =>
    have later := fun p mem => agree p (List.mem_cons_of_mem path mem)
    have first := agree path (by simp)
    rw [loadOver_cons, loadOver_cons]
    generalize left : (load files path).outcome = x at first
    generalize right : (load others path).outcome = y at first
    cases first with
    | error fault => exact .inl ⟨fault, rfl, rfl⟩
    | ok above => exact ih later (below.merge above (load_proper told left) (load_proper told' right))

end Layer

namespace Settings

variable {part key : String} {s t : Sources} {base other : Settings}

/-- Two sources that look for the same files and find there the same but for one place. -/
structure Sources.AgreeBut (part key : String) (s t : Sources) : Prop where
  told : Layer.Told s.files
  told' : Layer.Told t.files
  paths : s.paths = t.paths
  layers : ∀ path ∈ s.paths,
    Layer.AgreeBut part key (Layer.load s.files path).outcome (Layer.load t.files path).outcome

theorem Sources.ofFiles_eq (s : Sources) :
    s.ofFiles = Layer.loadOver s.files [] s.paths >>= fun layers => read (.dict layers) := by
  rw [ofFiles, present, Layer.loadAll_outcome, Layer.loadOver_filter]

/-- Sources that agree but for a place fail alike on their own, or else both are accepted or
refused. What is accepted is the same but for the setting of that place. -/
theorem Sources.AgreeBut.ofFiles (agree : s.AgreeBut part key t) :
    (∃ fault, s.ofFiles = .error fault ∧ t.ofFiles = .error fault) ∨
      Verdict s.ofFiles ∧ Verdict t.ofFiles ∧
        ∀ base other, s.ofFiles = .ok base → t.ofFiles = .ok other →
          ∀ {α : Type} (setting : Setting α), setting.path ≠ [part, key] →
            setting.value base = setting.value other := by
  rw [s.ofFiles_eq, t.ofFiles_eq, ← agree.paths]
  obtain ⟨fault, left, right⟩ | ⟨c, d, left, right, same⟩ :=
    Layer.loadOver_agree agree.told agree.told' agree.layers ⟨rfl, rfl⟩
  · rw [left, right]
    exact .inl ⟨fault, rfl, rfl⟩
  · rw [left, right]
    change (∃ fault, read (.dict c) = .error fault ∧ read (.dict d) = .error fault) ∨
      Verdict (read (.dict c)) ∧ Verdict (read (.dict d)) ∧ _
    cases texts : c.any fun e => !e.1.isText with
    | true =>
      refine .inl ⟨.wrongType .keywordsNotText, ?_, ?_⟩
      · rw [read, if_pos texts]
      · rw [read, if_pos (same.any.symm.trans texts)]
    | false =>
      refine .inr ⟨read_verdict texts, read_verdict (same.any.symm.trans texts), ?_⟩
      intro base other accepted accepted' α setting elsewhere
      have here := setting.readFrom_at? accepted
      have there := setting.readFrom_at? accepted'
      rw [Setting.path, same.at? elsewhere] at here
      exact Except.ok.inj (here.symm.trans there)

/-! ## What the environment replaces -/

theorem find?_table {o : Override} (listed : o ∈ Override.table) :
    Override.table.find? (fun p => KeyPath.ofText p.path == KeyPath.ofText o.path) = some o := by
  have all : ∀ o ∈ Override.table, Override.table.find?
      (fun p => KeyPath.ofText p.path == KeyPath.ofText o.path) = some o := by decide
  exact all o listed

/-- Settings that differ only where the environment has a value are the same behind it. -/
theorem overridden_eq {o : Override} {env : Environment} {v : Value}
    (listed : o ∈ Override.table) (given : o.given? env = some v)
    (same : ∀ {α : Type} (setting : Setting α), setting.path ≠ KeyPath.ofText o.path →
      setting.value base = setting.value other) :
    base.overridden env = other.overridden env := by
  have values : ∀ {α : Type} (setting : Setting α),
      (setting.given? env).getD (setting.toValue (setting.value base)) =
        (setting.given? env).getD (setting.toValue (setting.value other)) := by
    intro α setting
    by_cases here : setting.path = KeyPath.ofText o.path
    · have own : setting.given? env = some v := by
        rw [Setting.given?, Setting.override?, here, find?_table listed]
        exact given
      rw [own]
      rfl
    · rw [same setting here]
  rw [overridden, overridden]
  simp only [values]

theorem overridden_verdict (env : Environment) (base : Settings) :
    Verdict (read (base.overridden env)) :=
  read_verdict (by simp [Value.isText])

/-! ## Two loads -/

/-- Two loads that come to the same: equal settings, equal faults, or a refusal of both. -/
def SameOutcome (a b : Except Fault Settings) : Prop :=
  a = b ∨ ∃ title issues title' issues',
    a = .error (.invalid title issues) ∧ b = .error (.invalid title' issues')

theorem SameOutcome.symm {a b : Except Fault Settings} (same : SameOutcome a b) :
    SameOutcome b a := by
  rcases same with rfl | ⟨title, issues, title', issues', left, right⟩
  · exact .inl rfl
  · exact .inr ⟨title', issues', title, issues, right, left⟩

/-- What is a verdict comes to the same as a refusal if it is one. -/
theorem Verdict.same_refused {outcome : Except Fault Settings} (verdict : Verdict outcome)
    (title : String) (issues : List Issue) :
    SameOutcome outcome (.error (.invalid title issues)) ↔ ¬outcome.isOk = true := by
  rcases verdict with ⟨c, rfl⟩ | ⟨title', issues', rfl⟩
  · constructor
    · rintro (same | ⟨_, _, _, _, same, -⟩) <;> cases same
    · intro failed
      exact absurd rfl failed
  · constructor
    · intro _ ok
      cases ok
    · intro _
      exact .inr ⟨title', issues', title, issues, rfl, rfl⟩

/-- Two loads whose files say the same but for a value that the environment replaces. They come to
the same unless one of them succeeds while the files of the other are refused on their own; if
neither is refused so, nothing tells them apart. -/
theorem load_same_iff {o : Override} {env : Environment} {v : Value} {l m : Loader}
    (listed : o ∈ Override.table) (path : KeyPath.ofText o.path = [part, key])
    (given : o.given? env = some v) (agree : s.AgreeBut part key t)
    (extended : s.extended = .ok env) (extended' : t.extended = .ok env)
    (outside : l.paths = []) (outside' : m.paths = []) :
    (s.ofFiles.isOk = true → t.ofFiles.isOk = true → (load s l).1 = (load t m).1) ∧
      (SameOutcome (load s l).1 (load t m).1 ↔
        ((load s l).1.isOk = true → t.ofFiles.isOk = true) ∧
          ((load t m).1.isOk = true → s.ofFiles.isOk = true)) := by
  rw [load_outcome s outside, load_outcome t outside', extended, extended']
  rcases agree.ofFiles with ⟨fault, left, right⟩ |
    ⟨⟨base, left⟩ | ⟨title, issues, left⟩, ⟨other, right⟩ | ⟨title', issues', right⟩, same⟩
  · rw [left, right]
    refine ⟨fun _ _ => rfl, fun _ => ⟨fun ok => ?_, fun ok => ?_⟩, fun _ => .inl rfl⟩ <;> cases ok
  · -- Both are accepted on their own, and behind the environment they are equal.
    have behind : read (base.overridden env) = read (other.overridden env) := by
      rw [overridden_eq listed given]
      rw [path]
      exact same base other left right
    rw [left, right]
    exact ⟨fun _ _ => behind, fun _ => ⟨fun _ => rfl, fun _ => rfl⟩, fun _ => .inl behind⟩
  · have decided := (overridden_verdict env base).same_refused title' issues'
    rw [left, right]
    refine ⟨fun _ refused => ?_, decided.trans ⟨fun failed => ⟨fun ok => ?_, fun ok => ?_⟩, ?_⟩⟩
    · cases refused
    · exact absurd ok failed
    · cases ok
    · rintro ⟨accepted, -⟩ ok
      cases accepted ok
  · have decided := (overridden_verdict env other).same_refused title issues
    rw [left, right]
    refine ⟨fun refused _ => ?_, ⟨fun alike => ⟨fun ok => ?_, fun ok => ?_⟩, ?_⟩⟩
    · cases refused
    · cases ok
    · exact absurd ok (decided.mp alike.symm)
    · rintro ⟨-, accepted⟩
      refine (decided.mpr fun ok => ?_).symm
      cases accepted ok
  · rw [left, right]
    refine ⟨fun refused _ => ?_, fun _ => ⟨fun ok => ?_, fun ok => ?_⟩, fun _ => ?_⟩
    · cases refused
    · cases ok
    · cases ok
    · exact .inr ⟨title, issues, title', issues', rfl, rfl⟩

/-- One file that gives a level, under an environment that gives another one. -/
def leveled (level : String) : Sources where
  files := [("defaults.yaml", .document (.dict [(.text "logging", .dict [(.text "level", .text level)])]))]
  environment := [("EDITOR_LOG_LEVEL", "DEBUG")]
  paths := usualPaths
  withEnvironmentFile := false

theorem leveled_told (level : String) : Layer.Told (leveled level).files := by
  intro path content found
  simp only [Files.get?, leveled, List.lookup_cons] at found
  split at found
  · cases found
    simp only [Value.proper_dict, Entries.KeysDiffer, List.pairwise_singleton, List.mem_singleton,
      forall_eq, true_and]
    exact .plain rfl
  · cases found

theorem leveled_agree (level level' : String) :
    (leveled level).AgreeBut "logging" "level" (leveled level') where
  told := leveled_told level
  told' := leveled_told level'
  paths := rfl
  layers := by
    intro path mem
    rcases (by simpa [leveled, usualPaths] using mem : path = "defaults.yaml" ∨ path = "config.yaml")
      with rfl | rfl
    · exact .ok ⟨⟨rfl, rfl⟩, rfl⟩
    · exact .ok (.refl "logging" "level" [])

theorem load_same_iff_leveled :
    (load (leveled "INFO") .start).1 = (load (leveled "ERROR") .start).1 ∧
      ¬SameOutcome (load (leveled "INFO") .start).1 (load (leveled "LOUD") .start).1 := by
  have listed : ⟨"EDITOR_LOG_LEVEL", "logging.level", .text⟩ ∈ Override.table := by decide
  have path : KeyPath.ofText "logging.level" = ["logging", "level"] := by decide
  constructor
  · refine (load_same_iff listed path rfl (leveled_agree "INFO" "ERROR") rfl rfl rfl rfl).1 ?_ ?_
    · decide +kernel
    · decide +kernel
  · rw [(load_same_iff listed path rfl (leveled_agree "INFO" "LOUD") rfl rfl rfl rfl).2]
    rintro ⟨accepted, -⟩
    have loads : (load (leveled "INFO") .start).1.isOk = true := by decide +kernel
    have refused : (leveled "LOUD").ofFiles.isOk = false := by decide +kernel
    rw [refused] at accepted
    cases accepted loads

end Settings

end OptionHost
