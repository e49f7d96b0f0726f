import OptionHost.Proofs.Evaluation

/-!
# What engines report

Whatever a script dies of, its engine makes an error of scripting of it, with two exceptions. The
text of a syntax error may state a line whose number is too long to be read, and then the failure
to read it is what the engine ends with. And what the engine has to write about may have no text,
and then it ends with the failure to write it. So what holds of all errors of scripting, and of what
comes of these exceptions, holds of whatever an engine reports.
-/

namespace OptionHost

/-- Where the act succeeds, what it gives is as stated. -/
def Act.Gives {α : Type} (P : α → Prop) (act : Act α) : Prop :=
  ∀ ⦃h a h'⦄, act h = some (.ok a, h') → P a

namespace Act.Gives

variable {α β : Type} {P : α → Prop}

protected theorem pure {a : α} (given : P a) : Gives P (pure a : Act α) := by
  rintro h b h' ⟨⟩
  exact given

protected theorem bind {x : Act β} {f : β → Act α} (hf : ∀ b, Gives P (f b)) :
    Gives P (x >>= f) := by
  intro h a h' e
  obtain ⟨_, _, failed⟩ | ⟨b, h₁, _, went⟩ := bind_eq_some e
  · cases failed
  · exact hf b went

theorem bind_of {Q : β → Prop} {x : Act β} {f : β → Act α} (hx : Gives Q x)
    (hf : ∀ b, Q b → Gives P (f b)) : Gives P (x >>= f) := by
  intro h a h' e
  obtain ⟨_, _, failed⟩ | ⟨b, h₁, came, went⟩ := bind_eq_some e
  · cases failed
  · exact hf b (hx came) went

end Act.Gives

open Act

/-- A fault that a script may die of, depending on what its calls are answered with. -/
inductive Behaviour.MayRaise (r : Raised) : Behaviour → Prop where
  | now : MayRaise r (.raises r)
  | afterCall {name : String} {args : List Value} {kwargs : Entries} {next : Outcome → Behaviour}
      (outcome : Outcome) (later : MayRaise r (next outcome)) :
      MayRaise r (.calls name args kwargs next)
  | afterPrint {text : String} {next : Behaviour} (later : MayRaise r next) :
      MayRaise r (.prints text next)
  | afterHalt {next : Behaviour} (later : MayRaise r next) : MayRaise r (.blocks next)

/-- The texts of the syntax errors that an interpreter may come up with: as it reads a script, or
as it runs one. -/
inductive Source.MayRefuse : Source → String → Prop where
  | reading (message : String) : MayRefuse (.unreadable message) message
  | running {b : Behaviour} {message : String} {cause : Option Fault}
      (raised : b.MayRaise ⟨.foreign "MontySyntaxError" message, cause⟩) :
      MayRefuse (.readable b) message

/-- The faults that an interpreter may end a script with. -/
def Source.MayRaise (source : Source) (r : Raised) : Prop :=
  ∃ b, source = .readable b ∧ b.MayRaise r

/-- A limit of time that can be written down. -/
def RunnerConfig.IsStated (config : RunnerConfig) : Prop := config.limit.plain? ≠ none

theorem outOfTime_of_stated {config : RunnerConfig} (stated : config.IsStated) :
    outOfTime config =
      ⟨.timedOut .limitReached config.limit, some (.foreign "TimeoutError" "")⟩ := by
  refine if_pos ?_
  unfold Fault.message?
  rw [Option.isSome_map, Option.isSome_iff_ne_none]
  exact stated

theorem outOfTime_of_unstated {config : RunnerConfig} (unstated : ¬config.IsStated) :
    outOfTime config = Fault.unwritable := by
  refine if_neg ?_
  unfold Fault.message?
  rw [Option.isSome_map, Option.isSome_iff_ne_none]
  exact unstated

/-- A script that dies at once of what has no text leaves the engine with the failure to write
it. -/
theorem Starlark.evaluateAwaited_of_textless (site : Site) {globals : Table} {r : Raised}
    (expressible : (globals.all fun e => isExpressible e.2) = true) (foreign : isOwnFault r = false)
    (unsaid : r.text? = none) (h : Host) :
    ∃ h', evaluateAwaited site globals (.readable (.raises r)) h =
      some (.ok (.error Fault.unwritable, none), h') := by
  have concluded (h : Host) :
      ∃ h', conclude (.error r) h = some (.ok (.error Fault.unwritable), h') := by
    unfold conclude
    dsimp only
    rw [foreign, reportedFailure_of_textless unsaid]
    exact ⟨_, bind_of_ok (say_apply _ _)⟩
  obtain ⟨h', ended⟩ := concluded
    { h with journal := .prepared site.run (.names (names site.config globals)) :: h.journal }
  have begun : begin site globals (.readable (.raises r)) true h =
      some (.ok (.ended (.error Fault.unwritable)), h') := by
    unfold begin
    dsimp only
    rw [if_pos expressible]
    exact bind_of_ok ended
  exact ⟨h', bind_of_ok begun⟩

variable {P : Raised → Prop}

/-- The fault of the outcome, if it has one, is as stated. -/
def Blames (P : Raised → Prop) (outcome : Outcome) : Prop := ∀ r, outcome = .error r → P r

def Progress.Blames (P : Raised → Prop) (progress : Progress) : Prop :=
  ∀ outcome, progress = .ended outcome → OptionHost.Blames P outcome

theorem blames_ok (v : Value) : Blames P (.ok v) := by
  rintro r ⟨⟩

theorem blames_error {r : Raised} (blamed : P r) : Blames P (.error r) := by
  rintro _ ⟨⟩
  exact blamed

theorem Progress.blames_ended {outcome : Outcome} (blamed : OptionHost.Blames P outcome) :
    Progress.Blames P (.ended outcome) := by
  rintro _ ⟨⟩
  exact blamed

theorem Progress.blames_stalled (rest : Behaviour) : Progress.Blames P (.stalled rest) := by
  rintro _ ⟨⟩

/-- A script that dies of a fault without a text dies of one that it may raise. -/
theorem Starlark.drive_blames (site : Site) (table : Table) (yields : Bool) (b : Behaviour) :
    (drive site table yields b).Gives
      (Progress.Blames fun r => r.text? = none → b.MayRaise r) := by
  induction b with
  | returns v => exact Gives.pure (Progress.blames_ended (blames_ok v))
  | raises r => exact Gives.pure (Progress.blames_ended (blames_error fun _ => .now))
  | calls name args kwargs next ih =>
    unfold drive
    split
    · refine Gives.bind fun outcome => ?_
      intro h progress h' e ended same r died unsaid
      exact .afterCall outcome (ih outcome e ended same r died unsaid)
    · refine Gives.pure (Progress.blames_ended (blames_error ?_))
      rintro ⟨⟩
  | prints text next ih =>
    intro h progress h' e ended same r died unsaid
    exact .afterPrint (ih e ended same r died unsaid)
  | blocks next ih =>
    unfold drive
    split
    · exact Gives.pure (Progress.blames_stalled next)
    · intro h progress h' e ended same r died unsaid
      exact .afterHalt (ih e ended same r died unsaid)
  | strays => exact Gives.pure (Progress.blames_ended (blames_ok _))

section

variable (script : ∀ r : Raised, r.fault.isScriptError = true → P r)

include script

theorem outOfTime_blames {config : RunnerConfig}
    (late : ¬config.IsStated → P Fault.unwritable) : P (outOfTime config) := by
  by_cases stated : config.IsStated
  · rw [outOfTime_of_stated stated]
    exact script _ rfl
  · rw [outOfTime_of_unstated stated]
    exact late stated

theorem reportedFailure_blames {r : Raised} (mute : r.text? = none → P Fault.unwritable) :
    P (reportedFailure r) := by
  cases said : r.text? with
  | none =>
    rw [reportedFailure_of_textless said]
    exact mute said
  | some text =>
    rw [reportedFailure_of_text said]
    exact script _ rfl

namespace Starlark

theorem conclude_blames {outcome : Outcome}
    (mute : Blames (fun r => r.text? = none → P Fault.unwritable) outcome) :
    (conclude outcome).Gives (Blames P) := by
  cases outcome with
  | ok v => exact Gives.pure (blames_ok v)
  | error r =>
    have blamed := blames_error (reportedFailure_blames script (mute r rfl))
    unfold conclude
    dsimp only
    split
    · exact Gives.bind fun _ => Gives.pure blamed
    · exact Gives.pure blamed

theorem begin_blames (site : Site) (globals : Table) {source : Source} (yields : Bool)
    (refused : ∀ message, source.MayRefuse message → P (unreadable "StarlarkError" message))
    (mute : ∀ r, source.MayRaise r → r.text? = none → P Fault.unwritable) :
    (begin site globals source yields).Gives (Progress.Blames P) := by
  have concluded {outcome : Outcome}
      (mute : Blames (fun r => r.text? = none → P Fault.unwritable) outcome) :
      Gives (Progress.Blames P) (do return .ended (← conclude outcome)) :=
    Gives.bind_of (conclude_blames script mute) fun _ blamed =>
      Gives.pure (Progress.blames_ended blamed)
  unfold begin
  cases source with
  | unreadable message =>
    exact Gives.pure (Progress.blames_ended (blames_error (refused _ (.reading message))))
  | readable behaviour =>
    dsimp only
    split
    · refine Gives.bind fun _ => Gives.bind_of (drive_blames site _ yields behaviour) ?_
      intro progress died
      cases progress with
      | ended outcome =>
        refine concluded fun r error unsaid => ?_
        exact mute r ⟨behaviour, rfl, died outcome rfl r error unsaid⟩ unsaid
      | stalled rest => exact Gives.pure (Progress.blames_stalled rest)
    · exact concluded (blames_error (by rintro ⟨⟩))

theorem evaluate_blames (site : Site) (globals : Table) {source : Source}
    (refused : ∀ message, source.MayRefuse message → P (unreadable "StarlarkError" message))
    (mute : ∀ r, source.MayRaise r → r.text? = none → P Fault.unwritable) :
    (evaluate site globals source).Gives (Blames P) := by
  refine Gives.bind_of (begin_blames script site globals false refused mute) ?_
  intro progress blamed
  cases progress with
  | ended outcome => exact Gives.pure (blamed outcome rfl)
  | stalled rest => exact Gives.pure (blames_ok _)

theorem evaluateAwaited_blames (site : Site) (globals : Table) {source : Source}
    (refused : ∀ message, source.MayRefuse message → P (unreadable "StarlarkError" message))
    (mute : ∀ r, source.MayRaise r → r.text? = none → P Fault.unwritable)
    (late : ¬site.config.IsStated → P Fault.unwritable) :
    (evaluateAwaited site globals source).Gives fun p => Blames P p.1 := by
  refine Gives.bind_of (begin_blames script site globals true refused mute) ?_
  intro progress blamed
  cases progress with
  | ended outcome => exact Gives.pure (blamed outcome rfl)
  | stalled rest =>
    exact Gives.bind fun _ => Gives.pure (blames_error (outOfTime_blames script late))

end Starlark

namespace Monty

theorem settle_blames {r : Raised}
    (refused : ∀ message, r.fault = .foreign "MontySyntaxError" message →
      P (unreadable "MontySyntaxError" message))
    (mute : r.text? = none → P Fault.unwritable) :
    (settle r).Gives P := by
  have reported : P (reportedFailure r) := reportedFailure_blames script mute
  unfold settle
  split
  · rename_i message fault
    exact Gives.pure (refused message fault)
  · rename_i fault
    exact Gives.pure (script _ (by rw [fault]; rfl))
  · rename_i fault
    exact Gives.pure (script _ (by rw [fault]; rfl))
  · rename_i fault
    exact Gives.pure (script _ (by rw [fault]; rfl))
  · dsimp only
    split
    · exact Gives.bind fun _ => Gives.pure reported
    · exact Gives.pure reported

theorem drive_blames (site : Site) (table : Table) (b : Behaviour)
    (refused : ∀ message cause, b.MayRaise ⟨.foreign "MontySyntaxError" message, cause⟩ →
      P (unreadable "MontySyntaxError" message))
    (mute : ∀ r, b.MayRaise r → r.text? = none → P Fault.unwritable) :
    ∀ snapshots afterValue,
      (drive site table snapshots afterValue b).Gives (Progress.Blames P) := by
  have settled {r : Raised} (settles : (settle r).Gives P) : Gives (Progress.Blames P) (do
      return .ended (.error (← settle r))) :=
    Gives.bind_of settles fun _ blamed =>
      Gives.pure (Progress.blames_ended (blames_error blamed))
  induction b with
  | returns v => exact fun _ _ => Gives.pure (Progress.blames_ended (blames_ok v))
  | raises r =>
    intro snapshots afterValue
    unfold drive
    split
    · refine Gives.bind fun _ => settled (settle_blames script ?_ ?_)
      · intro message same
        exact absurd (Fault.foreign.inj same).1 (by decide)
      · rintro ⟨⟩
    · refine settled (settle_blames script (fun message fault => ?_) (mute r .now))
      obtain ⟨_, cause⟩ := r
      cases fault
      exact refused message cause .now
  | calls name args kwargs next ih =>
    intro snapshots afterValue
    unfold drive
    refine Gives.bind fun answered => ?_
    cases answered with
    | none => exact Gives.pure (Progress.blames_stalled _)
    | some given =>
      refine Gives.bind fun _ => ih given (fun message cause later => ?_) (fun r later => ?_) _ _
      · exact refused message cause (.afterCall given later)
      · exact mute r (.afterCall given later)
  | prints text next ih =>
    intro snapshots afterValue
    refine Gives.bind fun _ => ih (fun message cause later => ?_) (fun r later => ?_) _ _
    · exact refused message cause (.afterPrint later)
    · exact mute r (.afterPrint later)
  | blocks next ih => exact fun _ _ => Gives.pure (Progress.blames_stalled next)
  | strays => exact fun _ _ => Gives.pure (Progress.blames_ended (blames_error (script _ rfl)))

theorem evaluateAwaited_blames (site : Site) (globals : Table) {source : Source}
    (refused : ∀ message, source.MayRefuse message → P (unreadable "MontySyntaxError" message))
    (mute : ∀ r, source.MayRaise r → r.text? = none → P Fault.unwritable)
    (late : ¬site.config.IsStated → P Fault.unwritable) :
    (evaluateAwaited site globals source).Gives (Blames P) := by
  unfold evaluateAwaited
  cases source with
  | unreadable message => exact Gives.pure (blames_error (refused _ (.reading message)))
  | readable behaviour =>
    refine Gives.bind fun _ => ?_
    have driven := drive_blames script site (implementations globals) behaviour
      (fun message cause raised => refused message (.running raised))
      (fun r raised => mute r ⟨behaviour, rfl, raised⟩) 0 false
    refine Gives.bind_of driven fun progress blamed => ?_
    cases progress with
    | ended outcome => exact Gives.pure (blamed outcome rfl)
    | stalled rest =>
      exact Gives.bind fun _ => Gives.pure (blames_error (outOfTime_blames script late))

end Monty

/-- Only a stand-in for an interpreter passes on what a script dies of as it is. -/
theorem Runner.runEngine_blames {i : Interpreter} (real : i ≠ .standIn) (site : Site)
    (globals : Table) {job : Job}
    (refused : ∀ interpreterClass message, (job.source i).MayRefuse message →
      P (unreadable interpreterClass message))
    (mute : ∀ r, (job.source i).MayRaise r → r.text? = none → P Fault.unwritable)
    (late : ¬site.config.IsStated → P Fault.unwritable) :
    (runEngine i site globals job).Gives fun p => Blames P p.1 := by
  cases i with
  | starlark =>
    unfold runEngine
    dsimp only
    split
    · exact Starlark.evaluateAwaited_blames script site globals (refused _) mute late
    · exact Gives.bind_of (Starlark.evaluate_blames script site globals (refused _) mute)
        fun _ blamed => Gives.pure blamed
  | monty =>
    exact Gives.bind_of (Monty.evaluateAwaited_blames script site globals (refused _) mute late)
      fun _ blamed => Gives.pure blamed
  | standIn => exact absurd rfl real

end

end OptionHost
