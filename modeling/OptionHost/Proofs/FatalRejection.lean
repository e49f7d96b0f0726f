import OptionHost.Proofs.ScriptRoutes
import OptionHost.Proofs.UnderWay

/-!
# Rejections that kill a script

A script makes calls, survives some that fail, and in the end returns, or dies of a call of an
accessor that it does not survive. What its earlier calls came to does not matter: nothing is
booked for the evaluation after the call that killed the script, so the runner finds the error of
that call as the last one and raises it, on account of what the engine reported.
-/

namespace OptionHost

open Act
open Relation (ReflTransGen)

/-! ## The course of a script -/

namespace Starlark

/-- One step of a script: a text printed, a halt that is sat through, or a call answered. -/
inductive Step (site : Site) (table : Table) (yields : Bool) :
    Behaviour × Host → Behaviour × Host → Prop where
  | prints {text : String} {next : Behaviour} {h : Host} :
      Step site table yields (.prints text next, h) (next, h)
  | blocks {next : Behaviour} {h : Host} (sits : yields = false) :
      Step site table yields (.blocks next, h) (next, h)
  | calls {name : String} {args : List Value} {kwargs : Entries} {next : Outcome → Behaviour}
      {f : HostFunction} {awaited : Bool} {h h' : Host} {outcome : Outcome}
      (found : table.lookup name = some (.function f awaited))
      (called : site.callNoted name f awaited args kwargs h = some (.ok outcome, h')) :
      Step site table yields (.calls name args kwargs next, h) (next outcome, h')

variable {site : Site} {table : Table} {yields : Bool} {p q : Behaviour × Host}

theorem Step.drive (step : Step site table yields p q) :
    Starlark.drive site table yields p.1 p.2 = Starlark.drive site table yields q.1 q.2 := by
  cases step with
  | prints => rfl
  | blocks sits =>
    subst sits
    rfl
  | calls found called =>
    conv => lhs; unfold Starlark.drive
    dsimp only
    rw [found]
    exact bind_of_ok called

theorem drive_of_steps (steps : ReflTransGen (Step site table yields) p q) :
    Starlark.drive site table yields p.1 p.2 = Starlark.drive site table yields q.1 q.2 := by
  induction steps with
  | refl => rfl
  | tail _ step ih => exact ih.trans step.drive

theorem Step.along {R : Host → Host → Prop} [Host.Conduct R] (hr : site.respond.Along R)
    (step : Step site table yields p q) : R p.2 q.2 := by
  cases step with
  | prints => exact Host.Chronicle.refl _
  | blocks => exact Host.Chronicle.refl _
  | calls _ called =>
    exact (site.callNoted_composed _ _ _ _ _).along (Site.Deed.along (site.along hr)) called

theorem steps_along {R : Host → Host → Prop} [Host.Conduct R] (hr : site.respond.Along R)
    (steps : ReflTransGen (Step site table yields) p q) : R p.2 q.2 := by
  induction steps with
  | refl => exact Host.Chronicle.refl _
  | tail _ step ih => exact Host.Chronicle.trans ih (step.along hr)

end Starlark

namespace Monty

variable {site : Site} {table : Table} {p q : Point}

theorem Step.along {R : Host → Host → Prop} [Host.Conduct R] (hr : site.respond.Along R)
    (step : Step site table p q) : R p.host q.host := by
  have hs : site.Along R := site.along hr
  cases step with
  | prints printed => exact (print_composed site _).along (Site.Deed.along hs) printed
  | calls answered =>
    refine Host.Chronicle.trans ?_ (Host.Chronicle.noted _ rfl)
    exact (answer_composed site table _ _ _ _).along (Site.Deed.along hs) answered

theorem steps_along {R : Host → Host → Prop} [Host.Conduct R] (hr : site.respond.Along R)
    (steps : ReflTransGen (Step site table) p q) : R p.host q.host := by
  induction steps with
  | refl => exact Host.Chronicle.refl _
  | tail _ step ih => exact Host.Chronicle.trans ih (step.along hr)

end Monty

namespace Route

/-- A script that is evaluated by the route comes to a point, on a host. -/
def Reaches (route : Route) (site : Site) (globals : Table) (h : Host) (b rest : Behaviour)
    (h₁ : Host) : Prop :=
  let told := site.told (route.setups site globals) h
  match route with
  | .montyAwaited =>
    ∃ given, ReflTransGen (Monty.Step site (Monty.implementations globals)) ⟨[], b, told⟩
      ⟨given, rest, h₁⟩
  | route =>
    ReflTransGen (Starlark.Step site (Starlark.names site.config globals) route.awaited)
      (b, told) (rest, h₁)

/-- After whatever came of its calls before, a script makes a call of an accessor that fails with
an option error, and does not survive it: the interpreter raises an error of its own. -/
inductive DiesOf (route : Route) (site : Site) (globals : Table) (h : Host) (b : Behaviour)
    (e m : Raised) (h₂ : Host) : Prop where
  | calling {a : Accessor} {args : List Value} {kwargs : Entries} {next : Outcome → Behaviour}
      {h₁ : Host} (reached : route.Reaches site globals h b (.calls a.name args kwargs next) h₁)
      (rejected : site.invoke (.accessor site.run a) args kwargs h₁ = some (.error e, h₂))
      (option : e.fault.isOptionError = true) (uncaught : next (.error e) = .raises m)

/-- A runner of a host has a script evaluated by the route, and does not refuse to. -/
structure Evaluates (route : Route) (h : Host) (id : Nat) (runner : Runner) (job : Job)
    (b : Behaviour) : Prop where
  found : h.runners[id]? = some runner
  interpreter : runner.interpreter = route.interpreter
  awaited : job.awaited = route.awaited
  admitted : Runner.refusal? runner job = none
  source : job.source route.interpreter = .readable b
  expressible : route.interpreter = .starlark →
    ∀ e ∈ job.globals.getD [], Starlark.isExpressible e.2 = true

theorem Reaches.along {route : Route} {site : Site} {globals : Table} {h h₁ : Host}
    {b rest : Behaviour} {R : Host → Host → Prop} [Host.Conduct R] (hr : site.respond.Along R)
    (reached : route.Reaches site globals h b rest h₁) :
    R (site.told (route.setups site globals) h) h₁ := by
  cases route with
  | montyAwaited =>
    obtain ⟨given, steps⟩ := reached
    exact Monty.steps_along hr steps
  | _ => exact Starlark.steps_along hr reached

end Route

/-! ## The call that kills a script -/

/-- A failure of a script that is neither one of scripting nor one of reading the script, and that
says what it is. -/
structure Raised.isOfRunning (m : Raised) : Prop where
  notScripting : m.fault.isScriptError = false
  notReading : m.fault.className ≠ "MontySyntaxError"
  said : ∃ text, m.text? = some text

theorem Raised.isOfRunning.reported {m : Raised} (running : m.isOfRunning) :
    (reportedFailure m).fault.isScriptError = true := by
  obtain ⟨text, said⟩ := running.said
  rw [reportedFailure_of_text said]
  rfl

/-- An option error that a call of an accessor comes to is the last one that the evaluation has
noted. -/
theorem Site.failures_of_rejected (site : Site) (hr : site.respond.Along Host.Spares)
    {a : Accessor} {args : List Value} {kwargs : Entries} {h h' : Host} {bridge : Nat}
    {e : Raised} (runs : h.Runs site.run bridge)
    (rejected : site.invoke (.accessor site.run a) args kwargs h = some (.error e, h'))
    (option : e.fault.isOptionError = true) :
    ∃ evaluation earlier, h'.evaluations[site.run]? = some evaluation ∧
      evaluation.failures = e :: earlier := by
  let c : OptionCall := ⟨a, args, kwargs, false⟩
  change site.invokeAccessor c h = _ at rejected
  by_cases bad : (c.kwargs.any fun e => !e.1.isText) = true
  · rw [invokeAccessor_of_badNames bad] at rejected
    cases rejected
    cases option
  · rw [invokeAccessor_of_names bad] at rejected
    obtain ⟨h₁, accessed, rfl⟩ := accessWithin_cases runs rejected
    obtain ⟨e₁, found, -⟩ := runs.spared (Act.access_along hr bridge a args kwargs accessed)
    refine ⟨e₁.after (.error e), e₁.failures, ?_, ?_⟩
    · simp [found]
    · have noted : optionError? (.error e) = some e := if_pos option
      rw [Evaluation.failures_after, noted]
      rfl

namespace Starlark

theorem callNoted_of_invoke {site : Site} {f : HostFunction} {args : List Value}
    {kwargs : Entries} {outcome : Outcome} {h h' : Host} (name : String)
    (invoked : site.invoke f args kwargs h = some (outcome, h')) :
    site.callNoted name f false args kwargs h =
      some (.ok outcome, { h' with journal := .called site.run name outcome :: h'.journal }) := by
  unfold Site.callNoted
  rw [bind_of_ok (attempt_of_some (show site.invokePlainly f false args kwargs h = _ from invoked))]
  rfl

/-- What the engine makes of an error, after which it may write to the journal. -/
theorem conclude_error (m : Raised) (h : Host) :
    ∃ entries, conclude (.error m) h =
      some (.ok (.error (reportedFailure m)), { h with journal := entries ++ h.journal }) := by
  unfold conclude
  dsimp only
  split
  · exact ⟨_, bind_of_ok (say_apply _ h)⟩
  · exact ⟨[], rfl⟩

theorem runEngine_of_ended {site : Site} {globals : Table} {job : Job} {b : Behaviour}
    {h h₂ h₃ : Host} {outcome concluded : Outcome} (source : job.source .starlark = .readable b)
    (expressible : (globals.all fun e => isExpressible e.2) = true)
    (ended : drive site (names site.config globals) job.awaited b
      (site.told [.names (names site.config globals)] h) = some (.ok (.ended outcome), h₂))
    (settled : conclude outcome h₂ = some (.ok concluded, h₃)) :
    Runner.runEngine .starlark site globals job h = some (.ok (concluded, none), h₃) := by
  have begun (yields : Bool) (e : yields = job.awaited) :
      begin site globals (.readable b) yields h = some (.ok (.ended concluded), h₃) := by
    subst e
    unfold begin
    refine (congrFun (if_pos expressible) h).trans ?_
    refine (bind_of_ok (record_apply _ h)).trans ((bind_of_ok ended).trans ?_)
    exact bind_of_ok settled
  unfold Runner.runEngine
  rw [source]
  dsimp only
  cases awaited : job.awaited with
  | true => exact bind_of_ok (begun true awaited.symm)
  | false =>
    refine bind_of_ok (x := evaluate site globals (.readable b)) ?_
    exact bind_of_ok (begun false awaited.symm)

end Starlark

namespace Monty

theorem answer_of_rejected {site : Site} {table : Table} {a : Accessor}
    {args : List Value} {kwargs : Entries} {h h' : Host} {e : Raised}
    (found : table.lookup a.name = some (.function (.accessor site.run a) false))
    (rejected : site.invoke (.accessor site.run a) args kwargs h = some (.error e, h'))
    (snapshot : Nat) :
    answer site table snapshot a.name args kwargs h =
      some (.ok (some (.error e)),
        { h' with journal := .resumed site.run snapshot false (.error e) :: h'.journal }) := by
  unfold answer
  rw [found]
  dsimp only
  rw [bind_of_ok (attempt_of_some rejected)]
  rfl

theorem settle_of_running {m : Raised} (running : m.isOfRunning) (h : Host) :
    ∃ entries, settle m h =
      some (.ok (reportedFailure m), { h with journal := entries ++ h.journal }) := by
  obtain ⟨notScript, notSyntax, -⟩ := running
  have settled : settle m = (do
      if !isOwnFault m then say (failureRecord .monty m)
      return reportedFailure m : Act Raised) := by
    unfold settle
    generalize (do
      if !isOwnFault m then say (failureRecord .monty m)
      return reportedFailure m : Act Raised) = unexpected
    split
    · simp_all [Fault.className]
    · simp_all [Fault.isScriptError]
    · simp_all [Fault.isScriptError]
    · simp_all [Fault.isScriptError]
    · rfl
  rw [settled]
  split
  · exact ⟨_, bind_of_ok (say_apply _ h)⟩
  · exact ⟨[], rfl⟩

end Monty

namespace Route

variable {route : Route} {h g g₂ : Host} {id : Nat} {runner : Runner} {job : Job}
  {b : Behaviour}

theorem Evaluates.clear (evaluates : route.Evaluates h id runner job b) :
    ∀ name ∈ reservedNames, name ∉ (job.globals.getD []).names := by
  refine (Table.collisions_eq_nil_iff _).mp ?_
  have admitted := evaluates.admitted
  unfold Runner.refusal? at admitted
  split at admitted
  · cases admitted
  · split at admitted
    · cases admitted
    · split at admitted
      · assumption
      · cases admitted

theorem Evaluates.names_expressible (evaluates : route.Evaluates h id runner job b)
    (starlark : route.interpreter = .starlark) (run : Nat) :
    ((Runner.names job run).all fun e => Starlark.isExpressible e.2) = true := by
  rw [List.all_eq_true]
  intro e member
  rcases Table.mem_update member with given | own
  · exact evaluates.expressible starlark e given
  · obtain ⟨a, _, rfl⟩ := List.mem_map.mp own
    rfl

/-- What the engine reports of a script that dies. -/
theorem Evaluates.runEngine_of_dies (evaluates : route.Evaluates h id runner job b) (site : Site)
    {e m : Raised} (dies : route.DiesOf site (Runner.names job site.run) g b e m g₂)
    (running : m.isOfRunning) :
    ∃ entries, Runner.runEngine route.interpreter site (Runner.names job site.run) job g =
      some (.ok (.error (reportedFailure m), none),
        { g₂ with journal := entries ++ g₂.journal }) := by
  obtain @⟨a, args, kwargs, next, g₁, reached, rejected, -, uncaught⟩ := dies
  have starlark (yields : Bool)
      (steps : ReflTransGen
        (Starlark.Step site (Starlark.names site.config (Runner.names job site.run)) yields)
        (b, site.told [.names (Starlark.names site.config (Runner.names job site.run))] g)
        (.calls a.name args kwargs next, g₁)) (awaited : job.awaited = yields)
      (source : job.source .starlark = .readable b)
      (expressible : ((Runner.names job site.run).all fun e => Starlark.isExpressible e.2) =
        true) :
      ∃ entries, Runner.runEngine .starlark site (Runner.names job site.run) job g =
        some (.ok (.error (reportedFailure m), none),
          { g₂ with journal := entries ++ g₂.journal }) := by
    subst awaited
    have found := Runner.starlark_lookup evaluates.clear site.config site.run a
    have called := Starlark.callNoted_of_invoke a.name rejected
    have ended := Starlark.drive_of_steps (steps.tail (.calls found called))
    rw [uncaught] at ended
    obtain ⟨entries, settled⟩ := Starlark.conclude_error m
      { g₂ with journal := .called site.run a.name (.error e) :: g₂.journal }
    refine ⟨entries ++ [.called site.run a.name (.error e)], ?_⟩
    refine (Starlark.runEngine_of_ended source expressible ended settled).trans ?_
    simp
  cases route with
  | starlark =>
    exact starlark false reached evaluates.awaited evaluates.source
      (evaluates.names_expressible rfl site.run)
  | starlarkAwaited =>
    exact starlark true reached evaluates.awaited evaluates.source
      (evaluates.names_expressible rfl site.run)
  | montyAwaited =>
    obtain ⟨given, steps⟩ := reached
    have found := Runner.monty_lookup evaluates.clear site.run a
    have answered := Monty.answer_of_rejected found rejected (given.length + 1)
    have course := Monty.driven_of_steps (steps.tail (.calls answered))
    obtain ⟨entries, settled⟩ := Monty.settle_of_running running
      { g₂ with journal := .called site.run a.name (.error e) ::
          .resumed site.run (given.length + 1) false (.error e) :: g₂.journal }
    rw [uncaught] at course
    have ended := course.trans (Monty.drive_raises settled)
    refine ⟨entries ++ [.called site.run a.name (.error e),
      .resumed site.run (given.length + 1) false (.error e)], ?_⟩
    refine (bind_of_ok ((congrFun (congrArg _ evaluates.source) g).trans
      (Monty.evaluateAwaited_of_ended ended))).trans ?_
    simp

/-- What the engine reports of a script that returns. -/
theorem Evaluates.runEngine_of_returns (evaluates : route.Evaluates h id runner job b)
    (site : Site) {v : Value}
    (reached : route.Reaches site (Runner.names job site.run) g b (.returns v) g₂) :
    Runner.runEngine route.interpreter site (Runner.names job site.run) job g =
      some (.ok (.ok v, none), g₂) := by
  cases route with
  | starlark =>
    have ended := Starlark.drive_of_steps reached
    rw [← evaluates.awaited] at ended
    exact Starlark.runEngine_of_ended evaluates.source
      (evaluates.names_expressible rfl site.run) ended rfl
  | starlarkAwaited =>
    have ended := Starlark.drive_of_steps reached
    rw [← evaluates.awaited] at ended
    exact Starlark.runEngine_of_ended evaluates.source
      (evaluates.names_expressible rfl site.run) ended rfl
  | montyAwaited =>
    obtain ⟨given, steps⟩ := reached
    have ended := Monty.driven_of_steps steps
    exact bind_of_ok ((congrFun (congrArg _ evaluates.source) g).trans
      (Monty.evaluateAwaited_of_ended ended))

variable {depth : Nat}

theorem Reaches.runs {rest : Behaviour} {h₁ : Host}
    (reached : route.Reaches (runner.site (Session.respond depth) h)
      (Runner.names job h.evaluations.length) (runner.entered h) b rest h₁) :
    h₁.Runs h.evaluations.length runner.bridge := by
  have begun : Host.Runs _ h.evaluations.length runner.bridge := Host.Runs.entered runner h
  refine begun.spared (Host.Spares.trans (Host.Spares.of_same ?_) (reached.along ?_))
  · rfl
  · exact Session.respond_along depth

theorem uncaught_isOfRunning (route : Route) (r : Raised) :
    (route.interpreter.uncaught r).isOfRunning := by
  cases route with
  | montyAwaited => exact ⟨rfl, show "MontyRuntimeError" ≠ "MontySyntaxError" by decide, _, rfl⟩
  | _ => exact ⟨rfl, show "StarlarkError" ≠ "MontySyntaxError" by decide, _, rfl⟩

/-- A script that survives a rejected write and dies of the next one. -/
def defiant (i : Interpreter) : Behaviour :=
  .calls "opt_set_wrap" [.int 1] [] fun _ =>
    .calls "opt_set_break_at" [.text "nowhere"] [] fun outcome =>
      match outcome with
      | .ok v => .returns v
      | .error r => .raises (i.uncaught r)

end Route

end OptionHost
