import OptionHost.Proofs.AccessorCalls

/-!
# Engines on scripts of option calls

A script of option calls can be evaluated on Starlark, which runs it to the end or awaits it, and
on Monty, which awaits it. Whatever the route, the engine makes the calls of the script in a row
and turns their course into an outcome, in which the interpreters differ only by what they call a
failure that nothing caught.
-/

namespace OptionHost

open Act

/-! ## What an engine makes of a script -/

/-- What a script returns, given the results of its calls. -/
def OptionScript.Return.pick (results : List Value) : OptionScript.Return → Value
  | .value v => v
  | .result call => results.getD call .null

/-- How a course ends for an engine, given the results of the calls before. -/
def Course.ending (die : Raised → Raised) (last : OptionScript.Return) (results : List Value)
    (course : Course) : Outcome :=
  match course.death with
  | some r => .error (die r)
  | none => .ok (last.pick (results ++ course.calls.map fun call => resultOf call.2))

theorem Course.ending_before (die : Raised → Raised) (last : OptionScript.Return)
    (results : List Value) (c : OptionCall) (outcome : Outcome) (rest : Course) :
    (c.before outcome rest).ending die last results =
      rest.ending die last (results ++ [resultOf outcome]) := by
  unfold Course.ending OptionCall.before
  rw [List.append_assoc]
  rfl

/-- A way of driving scripts that answers calls by `make`, and that ends the script where an
interpreter finds a failure not caught. -/
structure Drives (i : Interpreter) (make : Nat → OptionCall → Act Outcome)
    (die : Raised → Raised) (drive : Nat → Bool → Behaviour → Act Progress) : Prop where
  returns : ∀ k after v, drive k after (.returns v) = pure (.ended (.ok v))
  raises : ∀ k r, drive k false (.raises (i.uncaught r)) = pure (.ended (.error (die r)))
  calls : ∀ k after (c : OptionCall) next,
    drive k after (.calls c.accessor.name c.args c.kwargs next) =
      make k c >>= fun outcome => drive (k + 1) outcome.isOk (next outcome)

theorem Drives.behaviourFrom {i : Interpreter} {make : Nat → OptionCall → Act Outcome}
    {die : Raised → Raised} {drive : Nat → Bool → Behaviour → Act Progress}
    (drives : Drives i make die drive) (last : OptionScript.Return) (calls : List OptionCall)
    (k : Nat) (after : Bool) (results : List Value) :
    drive k after (Plan.behaviourFrom i last.ending (calls.map OptionCall.action) results) =
      Course.run make k calls >>= fun course =>
        pure (.ended (course.ending die last results)) := by
  induction calls generalizing k after results with
  | nil =>
    have picked : Plan.finish results last.ending = .returns (last.pick (results ++ [])) := by
      rw [List.append_nil]
      cases last with
      | value v => rfl
      | result call => rfl
    refine (congrArg (drive k after) picked).trans ?_
    exact drives.returns k after _
  | cons c rest ih =>
    refine (drives.calls k after c _).trans ?_
    unfold Course.run
    rw [bind_assoc]
    congr 1
    funext outcome
    -- What follows the call goes on with the result of it, unless the failure ends the script.
    have goesOn (v : Value) (result : resultOf outcome = v) :
        drive (k + 1) outcome.isOk
            (Plan.behaviourFrom i last.ending (rest.map OptionCall.action) (results ++ [v])) =
          (Course.run make (k + 1) rest >>= fun course => pure (c.before outcome course)) >>=
            fun course => pure (.ended (course.ending die last results)) := by
      rw [ih, bind_assoc]
      congr 1
      funext course
      rw [pure_bind, Course.ending_before, result]
    cases outcome with
    | ok v => exact goesOn v rfl
    | error r =>
      by_cases caught : c.caught = true
      · have survived : c.fatal? (.error r) = none := if_pos caught
        rw [survived]
        refine Eq.trans ?_ (goesOn .null rfl)
        exact congrArg (drive (k + 1) false) (if_pos caught)
      · have died : c.fatal? (.error r) = some r := if_neg caught
        rw [died, pure_bind]
        refine (congrArg (drive (k + 1) false) (if_neg caught)).trans ?_
        refine (drives.raises (k + 1) r).trans ?_
        unfold Course.ending OptionCall.course
        rw [died]

/-- What an engine reports for a script that died of a failure not caught. -/
def Interpreter.reported (i : Interpreter) (r : Raised) : Raised := reportedFailure (i.uncaught r)

/-- Interpreters find words for every failure, so that the engine can report it. -/
theorem Interpreter.uncaught_text (i : Interpreter) (r : Raised) :
    ∃ text, (i.uncaught r).text? = some text := by
  cases i with
  | standIn =>
    change ∃ text, (reportedFailure r).text? = some text
    unfold reportedFailure
    split
    · exact ⟨_, rfl⟩
    · exact ⟨_, rfl⟩
  | _ => exact ⟨_, rfl⟩

theorem Interpreter.reported_eq (i : Interpreter) (r : Raised) :
    ∃ text, i.reported r = ⟨.failed (.reported text), some (i.uncaught r).fault⟩ := by
  obtain ⟨text, said⟩ := i.uncaught_text r
  exact ⟨text, reportedFailure_of_text said⟩

theorem Starlark.drives {site : Site} {table : Table}
    (found : ∀ a : Accessor, table.lookup a.name = some (.function (.accessor site.run a) false))
    (yields : Bool) :
    Drives .starlark (make site) Interpreter.starlark.uncaught
      fun _ _ => drive site table yields where
  returns _ _ _ := rfl
  raises _ _ := rfl
  calls k _ c next := drive_accessor (found c.accessor) k yields next

theorem Monty.drives {site : Site} {table : Table}
    (found : ∀ a : Accessor, table.lookup a.name = some (.function (.accessor site.run a) false)) :
    Drives .monty (make site) Interpreter.monty.reported (drive site table) where
  returns _ _ _ := rfl
  raises k r := by
    funext h
    exact drive_raises (show settle _ h = some (.ok (reportedFailure _), h) from rfl)
  calls k after c next := drive_accessor (found c.accessor) k after next

/-! ## Routes -/

/-- A way of having a script evaluated: by which interpreter, and whether it is awaited. -/
inductive Route where
  | starlark
  | starlarkAwaited
  | montyAwaited
  deriving DecidableEq, Repr

namespace Route

def interpreter : Route → Interpreter
  | .montyAwaited => .monty
  | _ => .starlark

/-- What the engine is called in a configuration. -/
def engine : Route → String
  | .montyAwaited => "monty"
  | _ => "starlark"

def awaited : Route → Bool
  | .starlark => false
  | _ => true

/-- A runner of a host whose evaluations go by the route. -/
structure Serves (route : Route) (h : Host) (id : Nat) (runner : Runner) : Prop where
  found : h.runners[id]? = some runner
  interpreter : runner.interpreter = route.interpreter
  engine : runner.config.engine = .text route.engine
  opened : runner.closed = false
  attached : h.bridges.getD runner.bridge false = true

/-- A job that has a script evaluated by the route. What it gives to the script beside the
accessors is under no reserved name and can be expressed in JSON. -/
structure Asks (route : Route) (script : OptionScript) (job : Job) : Prop where
  awaited : job.awaited = route.awaited
  source : job.source = script.plan.source
  clear : (job.globals.getD []).collisions = []
  expressible : ∀ e ∈ job.globals.getD [], Starlark.isExpressible e.2 = true

/-- How the engine makes a call of an accessor. -/
def make (route : Route) (site : Site) : Nat → OptionCall → Act Outcome :=
  match route with
  | .montyAwaited => Monty.make site
  | _ => Starlark.make site

theorem make_books (route : Route) {site : Site} (hr : site.respond.OnStore) :
    Books site.respond site.run (route.make site) := by
  cases route with
  | montyAwaited => exact Monty.make_books hr
  | _ => exact Starlark.make_books hr

/-- What the interpreter is told before the script begins, the latest first. -/
def setups (route : Route) (site : Site) (globals : Table) : List Setup :=
  match route with
  | .montyAwaited => Monty.setups site globals
  | _ => [.names (Starlark.names site.config globals)]

end Route

/-- The host when an interpreter has been told what to begin with. -/
def Site.told (site : Site) (setups : List Setup) (h : Host) : Host :=
  { h with journal := setups.map (.prepared site.run) ++ h.journal }

/-- What the engine of a runner finds under the names of accessors, and hands to the script. -/
structure Site.Offers (site : Site) (globals : Table) : Prop where
  starlark : ∀ a : Accessor, (Starlark.names site.config globals).lookup a.name =
    some (.function (.accessor site.run a) false)
  monty : ∀ a : Accessor, (Monty.implementations globals).lookup a.name =
    some (.function (.accessor site.run a) false)
  expressible : (globals.all fun e => Starlark.isExpressible e.2) = true

theorem Route.Asks.offers {route : Route} {script : OptionScript} {job : Job}
    (asks : route.Asks script job) (site : Site) : site.Offers (Runner.names job site.run) := by
  have clear := (Table.collisions_eq_nil_iff _).mp asks.clear
  refine ⟨?_, ?_, ?_⟩
  · exact Runner.starlark_lookup clear site.config site.run
  · exact Runner.monty_lookup clear site.run
  · rw [List.all_eq_true]
    intro e member
    rcases Table.mem_update member with given | own
    · exact asks.expressible e given
    · obtain ⟨a, _, rfl⟩ := List.mem_map.mp own
      rfl

theorem Starlark.conclude_ending (last : OptionScript.Return) (course : Course) :
    conclude (course.ending Interpreter.starlark.uncaught last []) =
      pure (course.ending Interpreter.starlark.reported last []) := by
  unfold Course.ending
  cases course.death with
  | none => rfl
  | some r => rfl

theorem Starlark.begin_apply {site : Site} {globals : Table} (offers : site.Offers globals)
    (script : OptionScript) (yields : Bool) (h : Host) :
    begin site globals (.readable (script.plan.behaviour .starlark)) yields h =
      (Course.run (make site) 0 script.calls >>= fun course =>
        pure (.ended (course.ending Interpreter.starlark.reported script.last [])))
          (site.told [.names (names site.config globals)] h) := by
  have driven : drive site (names site.config globals) yields
      (script.plan.behaviour .starlark) = _ :=
    (drives offers.starlark yields).behaviourFrom script.last script.calls 0 false []
  unfold begin
  refine (congrFun (if_pos offers.expressible) h).trans ?_
  refine (bind_of_ok (record_apply _ h)).trans ?_
  rw [driven, bind_assoc]
  simp only [pure_bind, conclude_ending]
  rfl

theorem Monty.evaluateAwaited_apply {site : Site} {globals : Table} (offers : site.Offers globals)
    (script : OptionScript) (h : Host) :
    evaluateAwaited site globals (.readable (script.plan.behaviour .monty)) h =
      (Course.run (make site) 0 script.calls >>= fun course =>
        pure (course.ending Interpreter.monty.reported script.last []))
          (site.told (setups site globals) h) := by
  have driven : drive site (implementations globals) 0 false (script.plan.behaviour .monty) = _ :=
    (drives offers.monty).behaviourFrom script.last script.calls 0 false []
  refine (bind_of_ok (begin_apply site globals h)).trans ?_
  rw [driven, bind_assoc]
  simp only [pure_bind]
  rfl

/-- What an engine makes of a script of option calls. -/
theorem Route.runEngine_apply {route : Route} {script : OptionScript} {job : Job}
    (asks : route.Asks script job) {site : Site} {globals : Table} (offers : site.Offers globals)
    (h : Host) :
    Runner.runEngine route.interpreter site globals job h =
      (Course.run (route.make site) 0 script.calls >>= fun course =>
        pure (course.ending route.interpreter.reported script.last [], none))
          (site.told (route.setups site globals) h) := by
  unfold Runner.runEngine
  rw [asks.source]
  cases route with
  | starlark =>
    refine (congrFun (if_neg (ne_true_of_eq_false asks.awaited)) h).trans ?_
    have begun := Starlark.begin_apply offers script false h
    refine (bind_congr_apply (bind_congr_apply begun _) _).trans ?_
    simp only [bind_assoc, pure_bind]
    rfl
  | starlarkAwaited =>
    refine (congrFun (if_pos asks.awaited) h).trans ?_
    refine (bind_congr_apply (Starlark.begin_apply offers script true h) _).trans ?_
    simp only [bind_assoc, pure_bind]
    rfl
  | montyAwaited =>
    refine (bind_congr_apply (Monty.evaluateAwaited_apply offers script h) _).trans ?_
    simp only [bind_assoc, pure_bind]
    rfl

end OptionHost
