import OptionHost.Proofs.RefusedLoads

/-!
# Loads that leave each other alone

The files that are layers are named by the loader, which all loads share, and every check builds on
whatever it names. A load names its files for the first check only, also where that check fails.
So each load finds the loader as it was at the beginning but for the journal, which is written to
and never looked at; its second check meets no file; and of the environment it sees the variables
that override something, and no others.
-/

namespace OptionHost

/-- A loader whose journal stands behind earlier records. -/
def Loader.behind (earlier : List Record) (l : Loader) : Loader :=
  { l with records := earlier ++ l.records }

/-! ## Pieces of loading that do not look at the journal -/

namespace Loading

variable {α β : Type}

/-- What was written earlier makes no difference to a piece of loading, and stays. -/
def Heedless (act : Loading α) : Prop :=
  ∀ earlier l, act (l.behind earlier) = ((act l).1, (act l).2.behind earlier)

theorem heedless_pure (a : α) : Heedless (pure a : Loading α) := fun _ _ => rfl

theorem heedless_throw (fault : Fault) : Heedless (throw fault : Loading α) := fun _ _ => rfl

theorem heedless_paths : Heedless paths := fun _ _ => rfl

theorem heedless_ofReport (r : Report α) : Heedless (ofReport r) := by
  intro earlier l
  simp only [ofReport, Loader.behind, List.append_assoc]

theorem Heedless.bind {first : Loading α} {next : α → Loading β} (heedless : Heedless first)
    (later : ∀ a, Heedless (next a)) : Heedless (first >>= next) := by
  intro earlier l
  rw [bind_apply, bind_apply, heedless earlier l]
  cases (first l).1 with
  | error fault => rfl
  | ok a => exact later a earlier (first l).2

theorem Heedless.attempt {act : Loading α} (heedless : Heedless act) : Heedless (attempt act) := by
  intro earlier l
  rw [attempt_apply, attempt_apply, heedless earlier l]

theorem Heedless.within {act : Loading α} (heedless : Heedless act) (paths : List String) :
    Heedless (within paths act) := by
  have apart (l : Loader) : Loading.within paths act l =
      ((act { l with paths := paths }).1,
        { (act { l with paths := paths }).2 with paths := l.paths }) := rfl
  intro earlier l
  have inside := heedless earlier { l with paths := paths }
  rw [apart, apart]
  exact congrArg (fun p => (p.1, { p.2 with paths := l.paths })) inside

theorem ofExcept_ok_bind (a : α) (next : α → Loading β) :
    (ofExcept (.ok a) >>= next) = next a :=
  funext fun l => bind_of_ok (ofExcept_apply (.ok a) l)

end Loading

/-! ## Overrides -/

/-- Environments that agree on the variables of some overrides put the same in their places. -/
theorem Override.applyAll_congr {env env' : Environment} {os : List Override}
    (agree : ∀ o ∈ os, env.get? o.name = env'.get? o.name) (data : Value) :
    applyAll env os data = applyAll env' os data := by
  induction os generalizing data with
  | nil => rfl
  | cons o rest ih =>
    have first : o.apply env data = o.apply env' data := by
      rw [apply, apply, value?, value?, agree o List.mem_cons_self]
    have others := ih fun other listed => agree other (List.mem_cons_of_mem o listed)
    simp only [applyAll, first, others]

namespace Settings

theorem build_heedless (files : Files) (named : Entries) : (build files named).Heedless :=
  .bind Loading.heedless_paths fun _ =>
    .bind (Loading.heedless_ofReport _) fun _ => Loading.heedless_ofReport _

theorem validate_heedless (files : Files) (data : Value) : (validate files data).Heedless := by
  refine .bind (build_heedless files _).attempt fun attempted => ?_
  split
  · exact .bind (Loading.heedless_ofReport _) fun _ => Loading.heedless_pure _
  · exact .bind (Loading.heedless_ofReport _) fun _ => Loading.heedless_throw _
  · exact Loading.heedless_throw _

/-- A load during which the files change: what there is behind the first check are other ones. -/
def loadAmid (later : Files) (s : Sources) : Loading Settings := do
  let base ← Loading.within s.present (build s.files [])
  Loading.say (builtRecord s.present)
  let env ← Loading.ofExcept s.extended
  let data ← Loading.ofReport (base.override env)
  let text ← Loading.ofExcept (Json.write (Json.Style.indented 2) data)
  Loading.say (finalRecord text)
  validate later data

theorem load_eq_loadAmid (s : Sources) : load s = loadAmid s.files s := rfl

theorem load_heedless (s : Sources) : (load s).Heedless := by
  refine .bind ((build_heedless s.files []).within _) fun base => ?_
  refine .bind (Loading.heedless_ofReport _) fun _ => ?_
  refine .bind (Loading.heedless_ofReport _) fun env => ?_
  refine .bind (Loading.heedless_ofReport _) fun data => ?_
  refine .bind (Loading.heedless_ofReport _) fun text => ?_
  exact .bind (Loading.heedless_ofReport _) fun _ => validate_heedless s.files data

/-! ## The second check -/

/-- Where the loader names no layers, no file is looked at. -/
theorem build_outside {l : Loader} (outside : l.paths = []) (files files' : Files)
    (named : Entries) : build files named l = build files' named l := by
  have none (any : Files) : Layer.Mapped any l.paths [] := outside ▸ .nil
  rw [build_mapped (none files), build_mapped (none files')]

theorem validate_outside {l : Loader} (outside : l.paths = []) (files files' : Files)
    (data : Value) : validate files data l = validate files' data l := by
  rw [validate, validate, Loading.bind_apply, Loading.bind_apply, Loading.attempt_apply,
    Loading.attempt_apply, build_outside outside files files']

theorem loadAmid_outside {l : Loader} (outside : l.paths = []) (later : Files) (s : Sources) :
    loadAmid later s l = load s l := by
  have kept : ∀ {α : Type} {first : Loading α} {next next' : α → Loading Settings} {l : Loader},
      first.Keeps → l.paths = [] → (∀ a l', l'.paths = [] → next a l' = next' a l') →
        (first >>= next) l = (first >>= next') l := by
    intro α first next next' l keeps outside same
    rw [Loading.bind_apply, Loading.bind_apply]
    cases (first l).1 with
    | error fault => rfl
    | ok a => exact same a _ ((keeps l).trans outside)
  refine kept (Loading.keeps_within _ _) outside fun base l outside => ?_
  refine kept (Loading.keeps_ofReport _) outside fun _ l outside => ?_
  refine kept (Loading.keeps_ofReport _) outside fun env l outside => ?_
  refine kept (Loading.keeps_ofReport _) outside fun data l outside => ?_
  refine kept (Loading.keeps_ofReport _) outside fun text l outside => ?_
  refine kept (Loading.keeps_ofReport _) outside fun _ l outside => ?_
  exact validate_outside outside later s.files data

/-! ## Loads in turn -/

/-- The loader that loads leave behind when they are carried out in turn, failures included. -/
def afterLoads (earlier : List Sources) (l : Loader) : Loader :=
  earlier.foldl (fun l s => (load s l).2) l

theorem afterLoads_paths (earlier : List Sources) (l : Loader) :
    (afterLoads earlier l).paths = l.paths := by
  induction earlier generalizing l with
  | nil => rfl
  | cons s rest ih => exact (ih (load s l).2).trans (load_keeps s l)

theorem load_of_agree {s : Sources} {env : Environment} (alone : s.withEnvironmentFile = false)
    (agree : ∀ o ∈ Override.table, env.get? o.name = s.environment.get? o.name) :
    load { s with environment := env } = load s := by
  have same (base : Settings) : base.override env = base.override s.environment := by
    rw [override, override, Override.applyAll_congr agree]
  have extended : s.extended = .ok s.environment := by
    rw [Sources.extended, alone]
    rfl
  have extended' : Sources.extended { s with environment := env } = .ok env := by
    simp only [Sources.extended, alone]
    rfl
  unfold load
  simp only [extended, extended', Loading.ofExcept_ok_bind, same]
  rfl

/-- After any loads in turn, failed ones included, a load comes to what it comes to in the
beginning, and writes the same behind what they wrote. It leaves the layers of the loader as they
were. What the files are behind its first check makes no difference to it; and without an
environment file, environments that agree on the variables of the table are one and the same. -/
theorem loads_apart :
    (∀ earlier s, load s (afterLoads earlier .start) =
      ((load s .start).1, (load s .start).2.behind (afterLoads earlier .start).records)) ∧
    (∀ s l, (load s l).2.paths = l.paths) ∧
    (∀ earlier later s,
      loadAmid later s (afterLoads earlier .start) = load s (afterLoads earlier .start)) ∧
    ∀ s env, s.withEnvironmentFile = false →
      (∀ o ∈ Override.table, env.get? o.name = s.environment.get? o.name) →
        load { s with environment := env } = load s := by
  have outside (earlier : List Sources) : (afterLoads earlier .start).paths = [] :=
    afterLoads_paths earlier .start
  refine ⟨fun earlier s => ?_, load_keeps, fun earlier later s => ?_, ?_⟩
  · have behind : Loader.start.behind (afterLoads earlier .start).records =
        afterLoads earlier .start :=
      congrArg₂ Loader.mk (outside earlier).symm (List.append_nil _)
    rw [← load_heedless, behind]
  · exact loadAmid_outside (outside earlier) later s
  · exact fun s env alone agree => load_of_agree alone agree

/-- A load behind two failed ones, the files of which are gone when it comes to the second check. A
variable that overrides nothing is not seen. -/
theorem loads_apart_refused :
    (load loudFile .start).1.isOk = false ∧ (load numberedFile .start).1.isOk = false ∧
      load loudEnvironment (afterLoads [loudFile, numberedFile] .start) =
        load loudEnvironment .start ∧
      loadAmid [] loudEnvironment (afterLoads [loudFile, numberedFile] .start) =
        load loudEnvironment .start ∧
      load { loudEnvironment with
        environment := [("LEVEL", "INFO"), ("EDITOR_LOG_LEVEL", "LOUD")] } =
          load loudEnvironment := by
  obtain ⟨again, -, amid, agree⟩ := loads_apart
  have silent : (afterLoads [loudFile, numberedFile] .start).records = [] := by decide +kernel
  have whole (done : Except Fault Settings × Loader) : (done.1, done.2.behind []) = done := rfl
  have apart : load loudEnvironment (afterLoads [loudFile, numberedFile] .start) =
      load loudEnvironment .start := by
    rw [again, silent, whole]
  refine ⟨by decide +kernel, by decide +kernel, apart, (amid _ _ _).trans apart, ?_⟩
  exact agree loudEnvironment _ rfl (by decide)

end Settings

end OptionHost
