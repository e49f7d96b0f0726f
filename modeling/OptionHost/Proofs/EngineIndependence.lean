import OptionHost.Proofs.ScriptRoutes

/-!
# Engine independence

By whatever route a script of option calls is evaluated, its calls have the outcomes that they
have directly on a bridge over the same store, listeners are told the same, the store ends up the
same, and the evaluation comes to the same value or to the same kind of error. The listeners have
to act on the store only: a listener that asks for evaluations itself can tell the routes apart.
-/

namespace OptionHost

open Act

/-! ## What an evaluation comes to -/

/-- What a caller can tell of an evaluation whatever engine it ran on: a value, an option error, or
an error of another class. -/
inductive Verdict where
  | returned (v : Value)
  | rejected (fault : Fault)
  | failed (className : String)

def verdictOf : Outcome → Verdict
  | .ok v => .returned v
  | .error r => if r.fault.isOptionError then .rejected r.fault else .failed r.fault.className

/-- The option errors of a course, the latest first. -/
def Course.optionErrors (course : Course) : List Raised :=
  (course.calls.filterMap fun call => optionError? call.2).reverse

/-- What the course of a script comes to. Once a failure was not caught, the last option error
decides, even if it was caught itself. -/
def OptionScript.verdict (script : OptionScript) (course : Course) : Verdict :=
  match course.death with
  | none => .returned (script.last.pick (course.calls.map fun call => resultOf call.2))
  | some _ =>
    match course.optionErrors with
    | r :: _ => .rejected r.fault
    | [] => .failed "ScriptExecutionError"

theorem failures_fold (made : List (String × Outcome)) (e : Evaluation) :
    (made.foldl (fun e m => e.after m.2) e).failures =
      (made.filterMap fun call => optionError? call.2).reverse ++ e.failures := by
  induction made generalizing e with
  | nil => rfl
  | cons m rest ih =>
    refine (ih _).trans ?_
    rw [Evaluation.failures_after, List.filterMap_cons]
    cases optionError? m.2 with
    | none => rfl
    | some r =>
      rw [List.reverse_cons, List.append_assoc]
      rfl

theorem isOptionError_of_optionErrors {course : Course} {r : Raised}
    (member : r ∈ course.optionErrors) : r.fault.isOptionError = true := by
  obtain ⟨call, _, found⟩ := List.mem_filterMap.mp (List.mem_reverse.mp member)
  exact isOptionError_of_optionError? found

/-- What a runner reports of a course does not depend on the interpreter. -/
theorem verdict_report {e : Evaluation} {course : Course}
    (failures : e.failures = course.optionErrors) (i : Interpreter) (script : OptionScript) :
    verdictOf (Runner.report e (course.ending i.reported script.last [])) =
      script.verdict course := by
  unfold Course.ending OptionScript.verdict
  cases course.death with
  | none => rfl
  | some r =>
    obtain ⟨text, reported⟩ := i.reported_eq r
    have script_error : (i.reported r).fault.isScriptError = true := by
      rw [reported]
      rfl
    unfold Runner.report
    dsimp only
    rw [if_pos script_error, failures, reported]
    cases errors : course.optionErrors with
    | nil => rfl
    | cons last earlier =>
      have isOptionError : last.fault.isOptionError = true :=
        isOptionError_of_optionErrors (errors ▸ List.mem_cons_self)
      exact if_pos isOptionError

/-! ## Direct calls -/

/-- A bridge that is attached stays so while a script calls it directly. -/
theorem OptionScript.direct_eq {respond : Response} (hr : respond.OnStore) {bridge : Nat}
    (calls : List OptionCall) (k : Nat) (h : Host) (attached : h.bridges.getD bridge false = true)
    (priv : h.Private) :
    Course.run (fun _ c => attempt (access respond bridge c.accessor c.args c.kwargs)) k calls h =
      (Course.run (fun _ c => c.plainly respond) k calls h.bare).map fun p =>
        (p.1, h.overlay p.2) := by
  refine Eq.trans ?_ ((Course.run_onStore (fun _ => plainly_onStore hr) k calls).same h priv)
  induction calls generalizing k h with
  | nil => rfl
  | cons c rest ih =>
    have first : attempt (access respond bridge c.accessor c.args c.kwargs) h =
        c.plainly respond h := by
      unfold OptionCall.plainly
      rw [attempt_apply, attempt_apply, access_apply attached]
    have plain := plainly_onStore hr c
    have same := plain.same h priv
    unfold Course.run
    cases called : c.plainly respond h.bare with
    | none =>
      rw [called] at same
      rw [bind_of_none (first.trans same), bind_of_none same]
    | some p =>
      obtain ⟨out, b⟩ := p
      obtain ⟨outcome, rfl⟩ := Settles.attempt _ called
      rw [called] at same
      rw [bind_of_ok (first.trans same), bind_of_ok same]
      cases c.fatal? outcome with
      | some r => rfl
      | none =>
        have privb : (h.overlay b).Private := plain.keeps h _ b priv called
        exact bind_congr_apply (ih (k + 1) (h.overlay b) attached privb) _

/-! ## Evaluations -/

namespace Route

variable {route : Route} {script : OptionScript} {job : Job} {h : Host} {id : Nat}
  {runner : Runner} {depth : Nat}

/-- The host on which a script begins. -/
def begun (route : Route) (respond : Response) (runner : Runner) (job : Job) (h : Host) : Host :=
  (runner.site respond h).told
    (route.setups (runner.site respond h) (Runner.names job h.evaluations.length))
    (runner.entered h)

theorem begun_live (serves : route.Serves h id runner) (priv : h.Private) (respond : Response)
    (job : Job) : (route.begun respond runner job h).Live h.evaluations.length := by
  refine ⟨⟨⟨runner.bridge, false, []⟩, ?_, rfl, serves.attached⟩, priv⟩
  exact List.getElem?_concat_length

/-- Telling an interpreter what to begin with says nothing to listeners and calls nothing. -/
theorem begun_seen (route : Route) (respond : Response) (runner : Runner) (job : Job) (h : Host) :
    (route.begun respond runner job h).events = h.events ∧
      (route.begun respond runner job h).callsOf h.evaluations.length =
        h.callsOf h.evaluations.length := by
  have unseen {α : Type} (f : Entry → Option α) (run : Nat) (setups : List Setup)
      (other : ∀ setup, f (.prepared run setup) = none) :
      (setups.map (Entry.prepared run)).filterMap f = [] := by
    rw [List.filterMap_map]
    exact List.filterMap_eq_nil_iff.mpr fun setup _ => other setup
  refine ⟨List.filterMap_append.trans ?_, List.filterMap_append.trans ?_⟩
  · rw [unseen Entry.event? _ _ fun _ => rfl]
    rfl
  · rw [unseen (Entry.call? h.evaluations.length) _ _ fun _ => rfl]
    rfl

theorem refusal?_eq_none (serves : route.Serves h id runner) (asks : route.Asks script job) :
    Runner.refusal? runner job = none := by
  refine Runner.refusal?_eq_none ?_ serves.opened asks.clear
  rw [asks.awaited, serves.engine]
  cases route with
  | starlark => exact .inr rfl
  | _ => exact .inl rfl

/-- An evaluation makes the calls of its script in a row and reports their course. -/
theorem evaluate_apply (serves : route.Serves h id runner) (asks : route.Asks script job)
    (respond : Response) :
    Runner.evaluate respond id job h =
      (Course.run (route.make (runner.site respond h)) 0 script.calls >>= fun course =>
        Runner.finish (runner.site respond h) (Runner.names job h.evaluations.length)
          (course.ending route.interpreter.reported script.last []) none)
        (route.begun respond runner job h) := by
  rw [Runner.evaluate_apply serves.found (refusal?_eq_none serves asks), serves.interpreter]
  have offers := asks.offers (runner.site respond h)
  refine (bind_congr_apply (runEngine_apply asks offers (runner.entered h)) _).trans ?_
  rw [bind_assoc]
  simp only [pure_bind]
  rfl

/-- The option errors of the calls are what a runner finds noted in the end. -/
theorem failures_of_made {respond : Response} {course : Course} {b h' : Host}
    (step : Host.Made h.evaluations.length (route.begun respond runner job h) b course.calls h') :
    ((h'.evaluations[h.evaluations.length]?).getD ⟨0, true, []⟩).failures =
      course.optionErrors := by
  have found : (route.begun respond runner job h).evaluations[h.evaluations.length]? =
      some ⟨runner.bridge, false, []⟩ := List.getElem?_concat_length
  rw [step.evaluations, List.getElem?_modify, found]
  simp only [if_true, Option.map_eq_map, Option.map_some, Option.getD_some]
  rw [failures_fold]
  exact List.append_nil _

/-- An evaluation makes of a script what the calls of the script come to on the store alone. -/
theorem evaluate_of_calls (serves : route.Serves h id runner) (asks : route.Asks script job)
    (priv : h.Private) {respond : Response} (hr : respond.OnStore) :
    (Course.run (fun _ c => c.plainly respond) 0 script.calls h.bare = none →
        Runner.evaluate respond id job h = none) ∧
      ∀ course b,
        Course.run (fun _ c => c.plainly respond) 0 script.calls h.bare = some (.ok course, b) →
          ∃ outcome h', Runner.evaluate respond id job h = some (outcome, h') ∧
            verdictOf outcome = script.verdict course ∧ h'.bare = b.bare ∧
            h'.events = b.events ++ h.events ∧
            h'.callsOf h.evaluations.length =
              course.calls.reverse ++ h.callsOf h.evaluations.length := by
  have evaluated := evaluate_apply serves asks respond
  obtain ⟨events, calls⟩ := begun_seen route respond runner job h
  have books : Books respond h.evaluations.length (route.make (runner.site respond h)) :=
    @make_books route (runner.site respond h) hr
  obtain ⟨lost, found⟩ :=
    Course.run_made hr books script.calls 0 _ (begun_live serves priv respond job)
  refine ⟨fun plain => evaluated.trans (bind_of_none (lost plain)), ?_⟩
  intro course b plain
  obtain ⟨h₁, made, step⟩ := found course b plain
  rw [bind_of_ok made, Runner.finish_apply] at evaluated
  refine ⟨_, _, evaluated, ?_, step.bare, ?_, ?_⟩
  · exact verdict_report (failures_of_made step) route.interpreter script
  · exact step.events.trans (congrArg (b.events ++ ·) events)
  · exact step.calls.trans (congrArg (course.calls.reverse ++ ·) calls)

end Route

/-- A listener that turns line breaks on as soon as wrapping changes. -/
def breaking (change : Change) : Reaction Request :=
  match change.option with
  | .wrap => .does (.set (.text "line_break") (.bool true)) fun _ => .returns
  | _ => .returns

theorem breaking_storeOnly (change : Change) : (breaking change).StoreOnly := by
  unfold breaking
  split
  · exact .does _ _ (.plain _ rfl) fun _ => .returns
  · exact .returns

/-- A script that turns wrapping off, survives a rejected write, and dies of a surplus argument. -/
def OptionScript.stumbling : OptionScript :=
  ⟨[⟨.setter .wrap, [.bool false], [], false⟩, ⟨.setter .breakAt, [.text "nowhere"], [], true⟩,
    ⟨.getter .wrap, [.null], [], false⟩], .result 2⟩

end OptionHost
