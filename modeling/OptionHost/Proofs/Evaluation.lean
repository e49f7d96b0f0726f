import OptionHost.Proofs.Composition

/-!
# How an evaluation goes

Engines do not fail: what a script dies of is an outcome. So an evaluation runs its engine on a
host where the evaluation is open, books the report, revokes the accessors, and lets the rest of
a script that was given up go on, whose end decides nothing.
-/

namespace OptionHost

/-- The act does not fail. -/
def Act.Settles {α : Type} (act : Act α) : Prop :=
  ∀ ⦃h out h'⦄, act h = some (out, h') → ∃ a, out = .ok a

namespace Act.Settles

variable {α β : Type}

protected theorem pure (a : α) : Settles (pure a : Act α) := by
  rintro h out h' ⟨⟩
  exact ⟨a, rfl⟩

protected theorem bind {x : Act α} {f : α → Act β} (hx : Settles x)
    (hf : ∀ a, Settles (f a)) : Settles (x >>= f) := by
  intro h out h' e
  obtain ⟨r, ex, rfl⟩ | ⟨a, h₁, ex, ef⟩ := bind_eq_some e
  · obtain ⟨a, impossible⟩ := hx ex
    cases impossible
  · exact hf a ef

protected theorem map {x : Act α} (f : α → β) (hx : Settles x) : Settles (f <$> x) := by
  rw [map_eq_pure_bind]
  exact Settles.bind hx fun _ => Settles.pure _

protected theorem attempt (x : Act α) : Settles (attempt x) := by
  intro h out h' e
  obtain ⟨inner, rfl, _⟩ := attempt_eq_some e
  exact ⟨inner, rfl⟩

protected theorem record (e : Entry) : Settles (record e) := by
  rintro h out h' ⟨⟩
  exact ⟨(), rfl⟩

protected theorem say (r : Record) : Settles (say r) := by
  intro h out h' e
  rw [say_apply] at e
  cases e
  exact ⟨(), rfl⟩

end Act.Settles

open Act

theorem Act.Composed.settles {Deed : (α : Type) → Act α → Prop} {α : Type} {x : Act α}
    (deeds : ∀ {β : Type} {y : Act β}, Deed β y → y.Settles) (composed : x.Composed Deed) :
    x.Settles := by
  induction composed with
  | deed done => exact deeds done
  | pure a => exact Settles.pure a
  | bind _ _ first next => exact Settles.bind first next
  | attempt _ _ => exact Settles.attempt _

theorem Site.Deed.settles {site : Site} {α : Type} {x : Act α} (done : site.Deed α x) :
    x.Settles := by
  cases done with
  | logs r => exact Settles.say r
  | notes _ => exact Settles.record _
  | calls _ _ _ => exact Settles.attempt _

theorem Starlark.release_settles (site : Site) (globals : Table) (rest : Behaviour) :
    (release site globals rest).Settles :=
  (release_composed site globals rest).settles Site.Deed.settles

/-- A table collides with no reserved name if and only if it has none. -/
theorem Table.collisions_eq_nil_iff (t : Table) :
    t.collisions = [] ↔ ∀ name ∈ reservedNames, name ∉ t.names := by
  unfold Table.collisions sortedNames
  rw [← List.length_eq_zero_iff, List.length_mergeSort, List.length_eq_zero_iff,
    List.filter_eq_nil_iff]
  constructor
  · intro free name reserved member
    exact free name reserved (List.contains_iff_mem.mpr member)
  · intro free name reserved contained
    exact free name reserved (List.contains_iff_mem.mp contained)

/-- The option error that a call ended with, if it did. -/
def optionError? : Outcome → Option Raised
  | .ok _ => none
  | .error r => if r.fault.isOptionError then some r else none

theorem isOptionError_of_optionError? {outcome : Outcome} {r : Raised}
    (found : optionError? outcome = some r) : r.fault.isOptionError = true := by
  cases outcome with
  | ok v => cases found
  | error failure =>
    obtain ⟨isOptionError, same⟩ := Option.ite_none_right_eq_some.mp found
    cases same
    exact isOptionError

theorem Evaluation.failures_after (e : Evaluation) (outcome : Outcome) :
    (e.after outcome).failures = (optionError? outcome).toList ++ e.failures := by
  cases outcome with
  | ok v => rfl
  | error r =>
    unfold Evaluation.after optionError?
    dsimp only
    split
    · rfl
    · rfl

namespace Runner

/-- What an open runner refuses of the jobs that its engine can take. -/
theorem refusal?_of_open {runner : Runner} {job : Job}
    (fits : job.awaited = true ∨ runner.config.engine = .text "starlark")
    (live : runner.closed = false) :
    refusal? runner job =
      match (job.globals.getD []).collisions with
      | [] => none
      | names => some (.wrongValue (.reservedNames names)) := by
  have synchronous : (!job.awaited && !runner.config.engine.same (.text "starlark")) = false := by
    rcases fits with awaited | starlark
    · rw [awaited]
      rfl
    · rw [starlark]
      exact Bool.and_false _
  unfold refusal?
  rw [synchronous, live]
  rfl

theorem refusal?_eq_none {runner : Runner} {job : Job}
    (fits : job.awaited = true ∨ runner.config.engine = .text "starlark")
    (live : runner.closed = false) (clear : (job.globals.getD []).collisions = []) :
    refusal? runner job = none := by
  rw [refusal?_of_open fits live, clear]

theorem runEngine_settles (i : Interpreter) (site : Site) (globals : Table) (job : Job) :
    (runEngine i site globals job).Settles :=
  (runEngine_composed site i globals job).settles Site.Deed.settles

/-- The host on which the engine of a runner begins an evaluation. -/
def entered (runner : Runner) (h : Host) : Host :=
  { h with
    evaluations := h.evaluations ++ [⟨runner.bridge, false, []⟩]
    injected := if runner.interpreter == .standIn then some h.evaluations.length else h.injected }

/-- The next evaluation as the engine of a runner sees it. -/
def site (runner : Runner) (respond : Response) (h : Host) : Site :=
  ⟨h.evaluations.length, runner.config, respond⟩

theorem evaluate_apply {respond : Response} {id : Nat} {job : Job} {h : Host} {runner : Runner}
    (found : h.runners[id]? = some runner) (admitted : refusal? runner job = none) :
    evaluate respond id job h =
      (runEngine runner.interpreter (runner.site respond h) (names job h.evaluations.length) job
        >>= fun p =>
          finish (runner.site respond h) (names job h.evaluations.length) p.1 p.2)
        (runner.entered h) := by
  unfold evaluate
  rw [bind_of_ok (show at? id h = some (.ok (some runner), h) from found ▸ rfl)]
  dsimp only
  rw [admitted]
  dsimp only
  rw [bind_of_ok (show openEvaluation runner.bridge h = some (.ok h.evaluations.length,
    { h with evaluations := h.evaluations ++ [⟨runner.bridge, false, []⟩] }) from rfl)]
  unfold entered
  split
  · rw [modify_bind_apply]
    rfl
  · rfl

def expired (run : Nat) (h : Host) : Host :=
  { h with evaluations := h.evaluations.modify run fun e => { e with finished := true } }

/-- What still goes on when an evaluation is over. -/
def afterwards (site : Site) (globals : Table) : Option Behaviour → Act Unit
  | none => pure ()
  | some rest => Starlark.release site globals rest

theorem afterwards_composed (site : Site) (globals : Table) (rest : Option Behaviour) :
    (afterwards site globals rest).Composed site.Deed := by
  cases rest with
  | none => exact .pure _
  | some rest => exact Starlark.release_composed site globals rest

/-- The report is settled before the rest of the script goes on. -/
theorem finish_apply (site : Site) (globals : Table) (outcome : Outcome)
    (rest : Option Behaviour) (h : Host) :
    finish site globals outcome rest h =
      (afterwards site globals rest (expired site.run h)).map fun p =>
        (report ((h.evaluations[site.run]?).getD ⟨0, true, []⟩) outcome, p.2) := by
  unfold finish
  rw [bind_of_ok (show evaluation site.run h = some (.ok _, h) from rfl)]
  rw [bind_of_ok (show finishEvaluation site.run h = some (.ok (), expired site.run h) from rfl)]
  cases rest with
  | none => exact ofOutcome_apply _ _
  | some rest =>
    dsimp only
    rw [show afterwards site globals (some rest) = Starlark.release site globals rest from rfl]
    cases released : Starlark.release site globals rest (expired site.run h) with
    | none =>
      rw [bind_of_none released, Option.map_none]
    | some p =>
      obtain ⟨out, h'⟩ := p
      obtain ⟨_, rfl⟩ := Starlark.release_settles site globals rest released
      rw [bind_of_ok released, Option.map_some]
      exact ofOutcome_apply _ _

/-- An evaluation that is not refused runs its engine, ends, and goes on with what was given up. -/
theorem evaluate_cases {respond : Response} {id : Nat} {job : Job} {h h' : Host} {runner : Runner}
    {out : Outcome} (found : h.runners[id]? = some runner) (admitted : refusal? runner job = none)
    (e : evaluate respond id job h = some (out, h')) :
    ∃ outcome rest h₂ ended,
      runEngine runner.interpreter (runner.site respond h) (names job h.evaluations.length) job
          (runner.entered h) = some (.ok (outcome, rest), h₂) ∧
        out = report ((h₂.evaluations[h.evaluations.length]?).getD ⟨0, true, []⟩) outcome ∧
        afterwards (runner.site respond h) (names job h.evaluations.length) rest
          (expired h.evaluations.length h₂) = some (ended, h') := by
  rw [evaluate_apply found admitted] at e
  obtain ⟨r, failed, -⟩ | ⟨⟨outcome, rest⟩, h₂, ran, e⟩ := bind_eq_some e
  · obtain ⟨_, impossible⟩ := runEngine_settles _ _ _ _ failed
    cases impossible
  · rw [finish_apply] at e
    obtain ⟨⟨ended, h₃⟩, went, e⟩ := Option.map_eq_some_iff.mp e
    cases e
    exact ⟨outcome, rest, h₂, ended, ran, rfl, went⟩

/-- An evaluation that leaves nothing behind is over when its engine is done. -/
theorem evaluate_of_ran {respond : Response} {id : Nat} {job : Job} {h h₂ : Host}
    {runner : Runner} {outcome : Outcome} (found : h.runners[id]? = some runner)
    (admitted : refusal? runner job = none)
    (ran : runEngine runner.interpreter (runner.site respond h) (names job h.evaluations.length)
      job (runner.entered h) = some (.ok (outcome, none), h₂)) :
    evaluate respond id job h =
      some (report ((h₂.evaluations[h.evaluations.length]?).getD ⟨0, true, []⟩) outcome,
        expired h.evaluations.length h₂) := by
  rw [evaluate_apply found admitted, bind_of_ok ran]
  exact finish_apply _ _ _ _ _

/-- A runner that refuses a job does nothing. -/
theorem evaluate_of_refused {respond : Response} {id : Nat} {job : Job} {h : Host}
    {runner : Runner} {fault : Fault} (found : h.runners[id]? = some runner)
    (refused : refusal? runner job = some fault) :
    evaluate respond id job h = some (.error ⟨fault, none⟩, h) := by
  unfold evaluate
  rw [bind_of_ok (show at? id h = some (.ok (some runner), h) from found ▸ rfl)]
  dsimp only
  rw [refused]
  rfl

theorem evaluate_of_not_found {respond : Response} {id : Nat} {job : Job} {h : Host}
    (absent : h.runners[id]? = none) :
    evaluate respond id job h = some (.error ⟨.script .runnerClosed, none⟩, h) := by
  unfold evaluate
  rw [bind_of_ok (show at? id h = some (.ok none, h) from absent ▸ rfl)]
  rfl

/-! ### Evaluations that are timed -/

theorem unawaited_composed (i : Interpreter) (site : Site) (globals : Table) (job : Job) :
    (unawaited i site globals job).Composed site.Deed := by
  cases i with
  | starlark => exact .bind (Starlark.evaluate_composed site globals _) fun _ => .pure _
  | _ => exact .pure _

/-- An evaluation that can be timed goes as any other one. -/
theorem evaluateTimed_of_timed {respond : Response} {id : Nat} {job : Job} {h : Host}
    (timed : ∀ runner, h.runners[id]? = some runner → untimed? runner job = none) :
    evaluateTimed respond id job h = evaluate respond id job h := by
  have nothing : (h.runners[id]?.bind fun runner => (untimed? runner job).map (runner, ·)) =
      none := by
    cases found : h.runners[id]? with
    | none => rfl
    | some runner => rw [Option.bind_some, timed runner found, Option.map_none]
  unfold evaluateTimed
  rw [bind_of_ok (show at? id h = some (.ok h.runners[id]?, h) from rfl), nothing]

theorem clockFault?_of_up {config : RunnerConfig} (up : isUp config.limit = true) :
    clockFault? config = some (outOfTime config) :=
  if_pos up

/-- A whole number of seconds beyond all floating-point numbers is out of the range of the clock. -/
theorem clockFault?_of_beyond {config : RunnerConfig} {n : Int} (limit : config.limit = .int n)
    (positive : 0 < n) (beyond : (Binary64.ofInt n).isFinite = false) :
    clockFault? config =
      some ⟨.foreign "OverflowError" "int too large to convert to float", none⟩ := by
  have standing : isUp (.int n) = false := decide_eq_false (Int.not_le.mpr positive)
  unfold clockFault?
  rw [limit, standing]
  dsimp only
  rw [beyond]
  rfl

theorem noteLimit_composed (i : Interpreter) (site : Site) :
    (noteLimit i site.config).Composed site.Deed := by
  unfold noteLimit
  split
  · cases i with
    | starlark | monty => exact .deed (.logs _)
    | standIn => exact .pure _
  · exact .pure _

theorem interpreter_of_untimed {runner : Runner} {job : Job} {r : Raised}
    (untimed : untimed? runner job = some r) : runner.interpreter ≠ .standIn := by
  intro standIn
  unfold untimed? at untimed
  rw [standIn] at untimed
  simp at untimed

theorem evaluateTimed_of_standIn {respond : Response} {id : Nat} {job : Job} {h : Host}
    {runner : Runner} (found : h.runners[id]? = some runner)
    (standIn : runner.interpreter = .standIn) :
    evaluateTimed respond id job h = evaluate respond id job h := by
  refine evaluateTimed_of_timed fun other same => ?_
  obtain rfl : runner = other := Option.some.inj (found.symm.trans same)
  cases timed : untimed? runner job with
  | none => rfl
  | some r => exact absurd standIn (interpreter_of_untimed timed)

theorem untimed?_of_admitted {runner : Runner} {job : Job} (awaited : job.awaited = true)
    (real : runner.interpreter ≠ .standIn) (admitted : refusal? runner job = none) :
    untimed? runner job = clockFault? runner.config := by
  unfold untimed?
  rw [awaited, admitted]
  exact if_pos (by simpa using real)

theorem clockFault?_of_untimed {runner : Runner} {job : Job} {r : Raised}
    (untimed : untimed? runner job = some r) : clockFault? runner.config = some r :=
  (Option.ite_none_right_eq_some.mp untimed).2

/-- An evaluation that cannot be waited for is over as it begins. -/
theorem evaluateTimed_apply {respond : Response} {id : Nat} {job : Job} {h : Host}
    {runner : Runner} {r : Raised} (found : h.runners[id]? = some runner)
    (untimed : untimed? runner job = some r) :
    evaluateTimed respond id job h =
      (noteLimit runner.interpreter runner.config >>= fun _ =>
        finishEvaluation h.evaluations.length >>= fun _ =>
          unawaited runner.interpreter (runner.site respond h) (names job h.evaluations.length) job
            >>= fun _ => throw r) (runner.entered h) := by
  have begun : openEvaluation runner.bridge h =
      some (.ok h.evaluations.length, runner.entered h) := by
    unfold entered
    rw [if_neg (by simpa using interpreter_of_untimed untimed)]
    rfl
  have decided : (h.runners[id]?.bind fun runner => (untimed? runner job).map (runner, ·)) =
      some (runner, r) := by
    rw [found, Option.bind_some, untimed, Option.map_some]
  unfold evaluateTimed
  rw [bind_of_ok (show at? id h = some (.ok h.runners[id]?, h) from rfl), decided]
  dsimp only
  rw [bind_of_ok begun]
  rfl

/-- What callers ask for is an evaluation, or the failure to wait for one. -/
theorem evaluateTimed_cases {respond : Response} {id : Nat} {job : Job} {h h' : Host}
    {out : Outcome} (e : evaluateTimed respond id job h = some (out, h')) :
    (∀ runner, h.runners[id]? = some runner → untimed? runner job = none) ∧
        evaluate respond id job h = some (out, h') ∨
      ∃ runner r noted h₁ ended, h.runners[id]? = some runner ∧ untimed? runner job = some r ∧
        out = .error r ∧
        noteLimit runner.interpreter runner.config (runner.entered h) = some (noted, h₁) ∧
        unawaited runner.interpreter (runner.site respond h) (names job h.evaluations.length) job
          (expired h.evaluations.length h₁) = some (ended, h') := by
  have asTimed (timed : ∀ runner, h.runners[id]? = some runner → untimed? runner job = none) :
      evaluate respond id job h = some (out, h') := by
    rw [← evaluateTimed_of_timed timed]
    exact e
  cases found : h.runners[id]? with
  | none => exact .inl ⟨nofun, asTimed (by rw [found]; nofun)⟩
  | some runner =>
    cases untimed : untimed? runner job with
    | none =>
      have timed : ∀ r, some runner = some r → untimed? r job = none := by
        rintro _ ⟨⟩
        exact untimed
      exact .inl ⟨timed, asTimed (found ▸ timed)⟩
    | some r =>
      rw [evaluateTimed_apply found untimed] at e
      obtain ⟨_, failed, -⟩ | ⟨_, h₁, noted, e⟩ := bind_eq_some e
      · obtain ⟨_, impossible⟩ :=
          (noteLimit_composed _ (runner.site respond h)).settles Site.Deed.settles failed
        cases impossible
      rw [bind_of_ok (show finishEvaluation h.evaluations.length h₁ =
        some (.ok (), expired h.evaluations.length h₁) from rfl)] at e
      obtain ⟨_, failed, -⟩ | ⟨_, h₂, went, e⟩ := bind_eq_some e
      · obtain ⟨_, impossible⟩ := (unawaited_composed _ _ _ job).settles Site.Deed.settles failed
        cases impossible
      · cases e
        exact .inr ⟨runner, r, _, h₁, _, rfl, untimed, rfl, noted, went⟩

end Runner

end OptionHost
