import OptionHost.Proofs.Precedence

/-!
# Loads that are refused

A load is meant to end with settings, or else with a refusal that the journal tells of. It does so
exactly where the files are accepted on their own. What is wrong with them ends the load before
anything is written, and where a key at the root of a file is no text it is no refusal even then.
-/

namespace OptionHost

/-! ## Keys that are texts -/

theorem Value.isText_of_same {k key : Value} (same : k.same key = true) :
    k.isText = key.isText := by
  cases k with
  | text name =>
    rw [Value.same_text_left.mp same]
  | _ =>
    cases key with
    | text name => cases Value.same_text_right.mp same
    | _ => rfl

namespace Entries

variable {entries lower upper : Entries} {key value : Value}

def Texts (entries : Entries) : Prop := ∀ e ∈ entries, e.1.isText = true

theorem any_isText : (entries.any fun e => !e.1.isText) = false ↔ entries.Texts := by
  simp [Texts]

theorem texts_cons {e : Value × Value} :
    Texts (e :: entries) ↔ e.1.isText = true ∧ entries.Texts := by
  simp [Texts]

/-- A key that stays in its first spelling is a text iff the other spelling is one. -/
theorem texts_put : (put key value entries).Texts ↔ key.isText = true ∧ entries.Texts := by
  induction entries with
  | nil => simp [put, Texts]
  | cons e rest ih =>
    obtain ⟨k, v⟩ := e
    by_cases found : k.same key = true
    · rw [put, if_pos found, texts_cons, texts_cons, Value.isText_of_same found]
      simp
    · rw [put, if_neg found, texts_cons, texts_cons, ih]
      exact and_left_comm

theorem texts_merge : (merge lower upper).Texts ↔ lower.Texts ∧ upper.Texts := by
  induction upper generalizing lower with
  | nil => simp [Texts]
  | cons e rest ih =>
    obtain ⟨k, v⟩ := e
    rw [merge_cons, ih, texts_put, texts_cons, and_comm (a := k.isText = true), and_assoc]

theorem texts_foldl {layers : List Entries} : (layers.foldl merge lower).Texts ↔
    lower.Texts ∧ ∀ layer ∈ layers, layer.Texts := by
  induction layers generalizing lower with
  | nil => simp
  | cons layer rest ih =>
    rw [List.foldl_cons, ih, texts_merge, List.forall_mem_cons, and_assoc]

theorem texts_mergeAll {layers : List Entries} :
    (mergeAll layers).Texts ↔ ∀ layer ∈ layers, layer.Texts := by
  rw [mergeAll, texts_foldl]
  simp [Texts]

end Entries

/-! ## Files that are read as mappings -/

namespace Layer

/-- Files that are read as mappings, of which the journal has nothing to tell. -/
def Mapped (files : Files) (paths : List String) (layers : List Entries) : Prop :=
  List.Forall₂ (fun path layer => load files path = pure layer) paths layers

theorem Mapped.loadAll {files : Files} {paths : List String} {layers : List Entries}
    (mapped : Mapped files paths layers) :
    loadAll files paths = pure (Entries.mergeAll layers) := by
  suffices each : paths.mapM (load files) = pure layers by
    rw [Layer.loadAll, each, pure_bind]
  induction mapped with
  | nil => rfl
  | cons first _ ih => rw [List.mapM_cons, first, pure_bind, ih, pure_bind]

end Layer

/-! ## Faults of an environment file -/

namespace EnvironmentFile

theorem extend_fault {bindings : Bindings} {env : Environment} {fault : Fault}
    (failed : extend env bindings = .error fault) : ∃ cause, fault = .wrongValue cause := by
  induction bindings generalizing env with
  | nil => cases failed
  | cons b rest ih =>
    obtain ⟨name, _ | value⟩ := b
    · exact ih failed
    · rw [extend] at failed
      split at failed
      next => exact ih failed
      next =>
        split at failed
        next refused =>
          cases failed
          rw [refusal?] at refused
          split at refused
          next =>
            cases refused
            exact ⟨_, rfl⟩
          next =>
            split at refused
            next =>
              cases refused
              exact ⟨_, rfl⟩
            next => cases refused
        next => exact ih failed

theorem load_fault {files : Files} {env : Environment} {fault : Fault}
    (failed : load files env = .error fault) :
    (∃ message, fault = .undecodable message) ∨ ∃ cause, fault = .wrongValue cause := by
  rw [load] at failed
  split at failed
  next => cases failed
  next =>
    split at failed
    next content _ =>
      rcases Except.bind_eq_error failed with unread | ⟨text, _, failed⟩
      · rw [readText] at unread
        split at unread
        next => cases unread
        next =>
          cases unread
          exact .inl ⟨_, rfl⟩
      · exact .inr (extend_fault failed)
    next => cases failed

end EnvironmentFile

/-! ## What a load writes -/

namespace Settings

variable {s : Sources} {l : Loader} {layers : List Entries} {fault : Fault}
  {done : Except Fault Settings × Loader}

/-- How a load is documented to end: with settings, or with a refusal that it has told the journal
of. -/
def Candid (l : Loader) (done : Except Fault Settings × Loader) : Prop :=
  (∃ c, done.1 = .ok c) ∨ ∃ title issues written, done.1 = .error (.invalid title issues) ∧
    done.2.records = l.records ++ written ∧ invalidRecord (.invalid title issues) ∈ written

theorem Candid.verdict (candid : Candid l done) : Verdict done.1 := by
  obtain settled | ⟨title, issues, _, refused, _, _⟩ := candid
  · exact .inl settled
  · exact .inr ⟨title, issues, refused⟩

/-- What ends with a fault and writes nothing is not what is documented. -/
theorem not_candid_of_silent (fault : Fault) (l : Loader) : ¬Candid l (.error fault, l) := by
  rintro (⟨c, came⟩ | ⟨title, issues, written, _, wrote, told⟩)
  · cases came
  · rw [List.self_eq_append_right.mp wrote] at told
    cases told

theorem Candid.behind (written : List Record)
    (candid : Candid { l with records := l.records ++ written } done) : Candid l done := by
  obtain settled | ⟨title, issues, later, refused, wrote, told⟩ := candid
  · exact .inl settled
  · exact .inr ⟨title, issues, written ++ later, refused, by rw [wrote, List.append_assoc],
      List.mem_append_right _ told⟩

theorem ofFiles_mapped (mapped : Layer.Mapped s.files s.present layers) :
    s.ofFiles = read (.dict (Entries.mergeAll layers)) := by
  rw [Sources.ofFiles, mapped.loadAll]
  rfl

theorem build_mapped {files : Files} (mapped : Layer.Mapped files l.paths layers)
    (named : Entries) : build files named l =
      (read (.dict (Entries.merge (Entries.mergeAll layers) (nameSections named))), l) := by
  change (Loading.ofReport (Layer.loadAll files l.paths) >>= _) l = _
  rw [mapped.loadAll, Loading.ofReport_bind rfl, Loading.ofExcept_apply]
  exact congrArg (Prod.mk _) (congrArg (Loader.mk _) (List.append_nil _))

/-- The first check of files that are read as mappings leaves nothing in the journal. -/
theorem first_check (mapped : Layer.Mapped s.files s.present layers) :
    Loading.within s.present (build s.files []) l = (s.ofFiles, l) := by
  rw [Loading.within, build_mapped mapped, ofFiles_mapped mapped]
  rfl

/-- The second check tells of its refusals. -/
theorem validate_candid {files : Files} {data : Value} (outside : l.paths = [])
    (sectioned : Sectioned data) (verdict : Verdict (read data)) :
    Candid l (validate files data l) := by
  have built : build files (entriesOf data) l = (read data, l) := by
    have none : Layer.Mapped files l.paths [] := outside ▸ .nil
    rw [build_mapped none]
    exact congrArg (·, l) (congrArg read (named_of_sectioned sectioned))
  have tried : Loading.attempt (build files (entriesOf data)) l = (.ok (read data), l) := by
    rw [Loading.attempt_apply, built]
  rw [validate, Loading.bind_apply, tried]
  rcases verdict with ⟨c, accepted⟩ | ⟨title, issues, refused⟩
  · rw [accepted]
    exact .inl ⟨c, rfl⟩
  · rw [refused]
    exact .inr ⟨title, issues, _, rfl, rfl, List.mem_singleton_self _⟩

/-! ## How loads end -/

theorem verdict_read_iff {root : Entries} : Verdict (read (.dict root)) ↔ root.Texts := by
  rw [← Entries.any_isText]
  constructor
  · intro verdict
    rw [read] at verdict
    split at verdict
    next => rcases verdict with ⟨_, came⟩ | ⟨_, _, came⟩ <;> cases came
    next texts => exact Bool.eq_false_iff.mpr texts
  · exact read_verdict

theorem extended_fault (failed : s.extended = .error fault) :
    (∃ message, fault = .undecodable message) ∨ ∃ cause, fault = .wrongValue cause := by
  rw [Sources.extended] at failed
  split at failed
  next => exact EnvironmentFile.load_fault failed
  next => cases failed

/-- What comes of a load whose files are read as mappings, and what it tells the journal. -/
structure Ending (s : Sources) (layers : List Entries) (l : Loader) : Prop where
  /-- It ends with settings or a refusal where all keys at the roots of the files are texts, unless
  an environment file that it gets to cannot be read. -/
  verdict : Verdict (load s l).1 ↔
    (∀ layer ∈ layers, layer.Texts) ∧ (s.ofFiles.isOk = true → s.extended.isOk = true)
  unnamed : (¬∀ layer ∈ layers, layer.Texts) → s.ofFiles = .error (.wrongType .keywordsNotText)
  /-- Whatever fault the files have on their own, the journal hears nothing of it. -/
  silent : ∀ fault, s.ofFiles = .error fault → load s l = (.error fault, l)
  candid : Candid l (load s l) ↔ s.ofFiles.isOk = true ∧ s.extended.isOk = true

/-- A load tells of its refusals in the second check only. In the first one a refusal passes
untold, and so does a key that is no text, which is not even refused as such. -/
theorem load_ending (outside : l.paths = []) (mapped : Layer.Mapped s.files s.present layers) :
    Ending s layers l := by
  have first := ofFiles_mapped mapped
  have texts : Verdict s.ofFiles ↔ ∀ layer ∈ layers, layer.Texts := by
    rw [first, verdict_read_iff, Entries.texts_mergeAll]
  have unnamed : (¬∀ layer ∈ layers, layer.Texts) →
      s.ofFiles = .error (.wrongType .keywordsNotText) := by
    rw [← Entries.texts_mergeAll, ← Entries.any_isText, Bool.not_eq_false]
    intro other
    rw [first, read, if_pos other]
  have check := first_check (l := l) mapped
  have silent : ∀ fault, s.ofFiles = .error fault → load s l = (.error fault, l) :=
    fun fault failed => load_refused (failed ▸ check)
  cases files : s.ofFiles with
  | error fault =>
    have ended := silent fault files
    refine ⟨?_, unnamed, silent, ?_⟩
    · rw [ended, ← texts, files]
      exact (and_iff_left fun accepted => absurd accepted Bool.false_ne_true).symm
    · rw [ended, files]
      exact iff_of_false (not_candid_of_silent fault l) fun both => Bool.false_ne_true both.1
  | ok base =>
    have named : ∀ layer ∈ layers, layer.Texts := texts.mp (.inl ⟨base, files⟩)
    cases extended : s.extended with
    | error fault =>
      have other : ¬Verdict (load s l).1 := by
        rw [load_unextended (files ▸ check) extended]
        rintro (⟨c, came⟩ | ⟨title, issues, came⟩)
        · cases came
        · obtain rfl := Except.error.inj came
          rcases extended_fault extended with ⟨_, came⟩ | ⟨_, came⟩ <;> cases came
      refine ⟨?_, unnamed, silent, ?_⟩
      · rw [files, extended]
        exact iff_of_false other fun both => Bool.false_ne_true (both.2 rfl)
      · rw [files, extended]
        refine iff_of_false (fun candid => other candid.verdict) fun both => ?_
        exact Bool.false_ne_true both.2
    | ok env =>
      obtain ⟨written, ended⟩ := load_behind (files ▸ check) extended
      have candid : Candid l (load s l) := by
        rw [ended]
        refine .behind written ?_
        exact validate_candid outside document_sectioned (overridden_verdict env base)
      refine ⟨?_, unnamed, silent, ?_⟩
      · rw [files, extended]
        exact iff_of_true candid.verdict ⟨named, fun _ => rfl⟩
      · rw [files, extended]
        exact iff_of_true candid ⟨rfl, rfl⟩

/-- A mapping alone in one file, under an environment. -/
def alone (root : Entries) (env : Environment) : Sources where
  files := [("defaults.yaml", .document (.dict root))]
  environment := env
  paths := usualPaths
  withEnvironmentFile := false

theorem mapped_alone (root : Entries) (env : Environment) :
    Layer.Mapped (alone root env).files (alone root env).present [root] := by
  have present : (alone root env).present = ["defaults.yaml"] := by
    simp [Sources.present, alone, usualPaths, Files.contains, Files.get?, List.lookup_cons]
  rw [present]
  exact .cons rfl .nil

def loudFile : Sources := alone [(.text "logging", .dict [(.text "level", .text "LOUD")])] []

def numberedFile : Sources := alone [(.int 1, .int 2)] []

def loudEnvironment : Sources := alone [] [("EDITOR_LOG_LEVEL", "LOUD")]

/-- What is no level is refused without a word where a file has it, and with one where the
environment has it. -/
theorem load_ending_untold :
    (∃ issues, load loudFile .start = (.error (.invalid title issues), .start)) ∧
      ¬Candid .start (load loudFile .start) ∧
      load numberedFile .start = (.error (.wrongType .keywordsNotText), .start) ∧
      ¬Verdict (load numberedFile .start).1 ∧
      (load loudEnvironment .start).1.isOk = false ∧
      Candid .start (load loudEnvironment .start) := by
  have ending (root : Entries) (env : Environment) : Ending (alone root env) [root] .start :=
    load_ending rfl (mapped_alone root env)
  have ofFiles (root : Entries) (env : Environment) :
      (alone root env).ofFiles = read (.dict (Entries.mergeAll [root])) :=
    ofFiles_mapped (mapped_alone root env)
  have number : ¬∀ layer ∈ [[((.int 1, .int 2) : Value × Value)]], Entries.Texts layer := by
    simp [Entries.Texts, Value.isText]
  refine ⟨⟨_, (ending _ _).silent _ (ofFiles _ _)⟩, fun candid => ?_,
    (ending _ _).silent _ ((ending _ _).unnamed number), fun verdict => ?_, ?_, ?_⟩
  · obtain ⟨accepted, -⟩ := (ending _ _).candid.mp candid
    rw [ofFiles] at accepted
    cases accepted
  · exact number ((ending _ _).verdict.mp verdict).1
  · decide +kernel
  · refine (ending _ _).candid.mpr ⟨?_, rfl⟩
    rw [ofFiles]
    rfl

end Settings

end OptionHost
