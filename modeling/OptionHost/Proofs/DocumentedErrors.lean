import OptionHost.Proofs.Completion
import OptionHost.Proofs.EngineReports
import OptionHost.Proofs.Notification
import OptionHost.Proofs.Rejection

/-!
# How evaluations end

Whatever a script does, and whatever the functions of the host do that it calls, its evaluation
comes to an end of one of four kinds: a value, an error of scripting, an option error that one of
its own calls of an accessor ended with, or the refusal of reserved names before anything was done.
Two things come in the way. An engine that has to report what has no text fails at writing it, and
an awaited evaluation fails where its clock cannot be set. Callers are told of neither. A limit that
is up as the evaluation begins is no third one: the script has run out of time then.
-/

namespace OptionHost

open Act

inductive EndKind where
  | value
  | scriptError
  | optionError
  | reservedNames
  deriving DecidableEq, Repr

/-- What kind of end an outcome is, if it is one that callers are told of. -/
def endKind? : Outcome → Option EndKind
  | .ok _ => some .value
  | .error r =>
    match r.fault with
    | .wrongValue (.reservedNames _) => some .reservedNames
    | fault =>
      if fault.isScriptError then some .scriptError
      else if fault.isOptionError then some .optionError
      else none

theorem endKind?_of_scriptError {r : Raised} (script : r.fault.isScriptError = true) :
    endKind? (.error r) = some .scriptError := by
  obtain ⟨fault, cause⟩ := r
  cases fault with
  | script _ | malformed _ _ _ | failed _ | timedOut _ _ => rfl
  | _ => cases script

theorem endKind?_of_optionError {r : Raised} (option : r.fault.isOptionError = true) :
    endKind? (.error r) = some .optionError := by
  obtain ⟨fault, cause⟩ := r
  cases fault with
  | option _ | rejected _ _ _ | hostState _ => rfl
  | _ => cases option

/-- A text that states no line whose number is too long to be read. -/
def Legible (message : String) : Prop :=
  ∀ digits, statedLine? message.toList = some digits → digits.length ≤ digitLimit

theorem unreadable_of_legible {message : String} (legible : Legible message)
    (interpreterClass : String) :
    (unreadable interpreterClass message).fault.isScriptError = true := by
  unfold unreadable
  cases stated : statedLine? message.toList with
  | none => rfl
  | some digits =>
    dsimp only
    rw [if_neg (Nat.not_lt.mpr (legible digits stated))]
    rfl

/-- What was booked for an evaluation that was not yet open was booked since. -/
theorem Host.Booked.accessed_since {h h' : Host} (booked : h.Booked) (tells : h.Tells h')
    {run : Nat} (unopened : h.evaluations.length ≤ run) {a : Accessor} {r : Raised}
    (option : r.fault.isOptionError = true)
    (member : Entry.accessed run a (.error r) ∈ h'.journal) :
    Entry.accessed run a (.error r) ∈ h'.since h := by
  obtain ⟨es, grown, -⟩ := tells
  rw [Host.since_eq grown]
  rw [grown] at member
  rcases List.mem_append.mp member with later | earlier
  · exact List.mem_reverse.mp later
  · have booked_ : r ∈ h.rejections run :=
      List.mem_filterMap.mpr ⟨_, earlier, if_pos ⟨rfl, option⟩⟩
    rw [booked.fresh run unopened] at booked_
    cases booked_

/-- An end of an evaluation as callers are told of. It is of exactly one kind. An option error is
what one of the evaluation's own calls of an accessor ended with, raised again on account of another
fault; names are refused before anything is done. -/
structure Documented (job : Job) (h : Host) (out : Outcome) (h' : Host) : Prop where
  kind : ∃ kind, endKind? out = some kind
  recorded : endKind? out = some .optionError → ∃ a r cause, out = .error (r.because cause) ∧
    Entry.accessed h.evaluations.length a (.error r) ∈ h'.since h
  refused : endKind? out = some .reservedNames → h' = h ∧ (job.globals.getD []).collisions ≠ [] ∧
    out = .error ⟨.wrongValue (.reservedNames (job.globals.getD []).collisions), none⟩

namespace Documented

variable {job : Job} {h h' : Host}

theorem of_value (v : Value) : Documented job h (.ok v) h' := ⟨⟨.value, rfl⟩, nofun, nofun⟩

theorem of_scriptError {r : Raised} (script : r.fault.isScriptError = true) :
    Documented job h (.error r) h' := by
  have kind := endKind?_of_scriptError script
  refine ⟨⟨_, kind⟩, ?_, ?_⟩
  · intro other
    cases kind.symm.trans other
  · intro other
    cases kind.symm.trans other

theorem of_optionError {r : Raised} {cause : Fault} {a : Accessor}
    (option : r.fault.isOptionError = true)
    (made : Entry.accessed h.evaluations.length a (.error r) ∈ h'.since h) :
    Documented job h (.error (r.because cause)) h' := by
  have kind : endKind? (.error (r.because cause)) = _ := endKind?_of_optionError option
  refine ⟨⟨_, kind⟩, fun _ => ⟨a, r, cause, rfl, made⟩, ?_⟩
  intro other
  cases kind.symm.trans other

theorem of_reservedNames (collides : (job.globals.getD []).collisions ≠ []) :
    Documented job h
      (.error ⟨.wrongValue (.reservedNames (job.globals.getD []).collisions), none⟩) h :=
  ⟨⟨.reservedNames, rfl⟩, nofun, fun _ => ⟨rfl, collides, rfl⟩⟩

end Documented

/-- An end of an evaluation that callers are not told of. -/
inductive Unreported (runner : Runner) (job : Job) : Outcome → Prop where
  | untimed {r : Raised} (untimed : runner.untimed? job = some r)
      (standing : Runner.isUp runner.config.limit = false) : Unreported runner job (.error r)
  /-- The script may die of something that has no text. -/
  | textless {r : Raised} (raised : (job.source runner.interpreter).MayRaise r)
      (unsaid : r.text? = none) : Unreported runner job (.error Fault.unwritable)
  | unstated (unstated : ¬runner.config.IsStated) :
      Unreported runner job (.error Fault.unwritable)

namespace Runner

theorem endKind?_of_untimed {runner : Runner} {job : Job} {r : Raised}
    (untimed : runner.untimed? job = some r) (standing : isUp runner.config.limit = false) :
    endKind? (.error r) = none := by
  have unset := clockFault?_of_untimed untimed
  unfold clockFault? at unset
  rw [standing, if_neg Bool.false_ne_true] at unset
  split at unset
  · cases unset
  · cases unset
  · cases unset
  · split at unset
    · cases unset
    · cases unset
      rfl
  · cases unset
    rfl

end Runner

theorem Unreported.endKind?_eq_none {runner : Runner} {job : Job} {out : Outcome}
    (unreported : Unreported runner job out) : endKind? out = none := by
  cases unreported with
  | untimed untimed standing => exact Runner.endKind?_of_untimed untimed standing
  | textless raised unsaid => rfl
  | unstated unstated => rfl

namespace Runner

/-- An evaluation whose limit is up as it begins ends as any other one that runs out of time. -/
theorem untimed_told {runner : Runner} {job : Job} {h h' : Host} {r : Raised}
    (untimed : runner.untimed? job = some r) :
    Documented job h (.error r) h' ∨ Unreported runner job (.error r) := by
  cases up : isUp runner.config.limit with
  | false => exact .inr (.untimed untimed up)
  | true =>
    obtain rfl := Option.some.inj
      ((clockFault?_of_up up).symm.trans (clockFault?_of_untimed untimed))
    exact outOfTime_blames
      (P := fun r => Documented job h (.error r) h' ∨ Unreported runner job (.error r))
      (fun _ script => .inl (.of_scriptError script)) fun unstated => .inr (.unstated unstated)

theorem refusal?_eq_some {runner : Runner} {job : Job} {fault : Fault}
    (named : ∃ name, runner.config.engine = .text name)
    (refused : refusal? runner job = some fault) :
    fault.isScriptError = true ∨
      (job.globals.getD []).collisions ≠ [] ∧
        fault = .wrongValue (.reservedNames (job.globals.getD []).collisions) := by
  obtain ⟨name, named⟩ := named
  unfold refusal? at refused
  rw [named] at refused
  split at refused
  · cases refused
    exact .inl rfl
  · split at refused
    · cases refused
      exact .inl rfl
    · split at refused
      · cases refused
      · rename_i collides
        cases refused
        exact .inr ⟨collides, rfl⟩

/-- What a configuration names as its engine is a text, and no stand-in for an engine. -/
theorem engine_of_coupled {runner : Runner}
    (coupled : runner.config.interpreter? = some runner.interpreter) :
    runner.interpreter ≠ .standIn ∧ ∃ name, runner.config.engine = .text name := by
  unfold RunnerConfig.interpreter? at coupled
  split at coupled
  · rename_i named
    exact ⟨by rw [← Option.some.inj coupled]; decide, _, named⟩
  · rename_i named
    exact ⟨by rw [← Option.some.inj coupled]; decide, _, named⟩
  · cases coupled

/-- An evaluation by one of the engines on a host that can be reached, once its clock is set, with
listeners whose responses come to an end. Where the engine could write its report, callers are told
of the end. -/
theorem evaluate_told {store : Store} {h : Host} (reached : (Host.ofStore store).Path h)
    {depth id : Nat} {job : Job} {runner : Runner} (found : h.runners[id]? = some runner)
    (real : runner.interpreter ≠ .standIn) (named : ∃ name, runner.config.engine = .text name)
    (legible : ∀ message, (job.source runner.interpreter).MayRefuse message → Legible message)
    {out : Outcome} {h' : Host}
    (e : evaluate (Session.respond depth) id job h = some (out, h')) :
    Documented job h out h' ∨ Unreported runner job out := by
  cases decision : refusal? runner job with
  | some fault =>
    rw [evaluate_of_refused found decision] at e
    cases e
    obtain script | ⟨collides, rfl⟩ := refusal?_eq_some named decision
    · exact .inl (.of_scriptError script)
    · exact .inl (.of_reservedNames collides)
  | none =>
    have tells : h.Tells h' := (evaluate_along (Session.respond_along depth) id job).path e
    obtain ⟨outcome, rest, h₂, ended, ran, rfl, went⟩ := evaluate_cases found decision e
    cases outcome with
    | ok v => exact .inl (.of_value v)
    | error failure =>
      have blamed : failure.fault.isScriptError = true ∨
          failure = Fault.unwritable ∧ Unreported runner job (.error Fault.unwritable) :=
        runEngine_blames
          (P := fun r => r.fault.isScriptError = true ∨
            r = Fault.unwritable ∧ Unreported runner job (.error Fault.unwritable))
          (fun _ script => .inl script) real _ _
          (fun cls message refused => .inl (unreadable_of_legible (legible message refused) cls))
          (fun r raised unsaid => .inr ⟨rfl, .textless raised unsaid⟩)
          (fun unstated => .inr ⟨rfl, .unstated unstated⟩) ran failure rfl
      rcases blamed with script | ⟨rfl, unreported⟩
      · -- The report may put an option error in the place of the error of scripting.
        have engine := (runEngine_byMoves runner.interpreter
          (runner.site (Session.respond depth) h) (Session.respond_byMoves depth)
          (names job h.evaluations.length) job).path ran
        have booked := Host.Path.booked (reached.trans ((entered_path runner h).trans engine))
          (.ofStore store)
        have opened : h.evaluations.length < h₂.evaluations.length := by
          have grown := Host.Path.evaluations_le engine
          simp only [entered, List.length_append, List.length_cons, List.length_nil] at grown
          omega
        rw [report_of_scriptError booked opened script]
        cases rejections : h₂.rejections h.evaluations.length with
        | nil => exact .inl (.of_scriptError script)
        | cons r earlier =>
          have member : r ∈ h₂.rejections h.evaluations.length :=
            rejections ▸ List.mem_cons_self
          obtain ⟨a, made⟩ := Host.accessed_of_rejections member
          have afterwards : (expired h.evaluations.length h₂).Tells h' :=
            (afterwards_along (runner.site (Session.respond depth) h)
              (Session.respond_along depth) _ rest).path went
          obtain ⟨es, grown, -⟩ := afterwards
          have kept : Entry.accessed h.evaluations.length a (.error r) ∈ h'.journal :=
            grown ▸ List.mem_append_right _ made
          refine .inl (.of_optionError (a := a) (isOptionError_of_mem member) ?_)
          exact (Host.Path.booked reached (.ofStore store)).accessed_since tells (Nat.le_refl _)
            (isOptionError_of_mem member) kept
      · exact .inr unreported

/-- A script whose call runs into a timeout of its own, and that dies of it. -/
def timingOut : Job :=
  ⟨true, some [("fetch", .function (.fails ⟨.foreign "TimeoutError" "", none⟩) false)],
    fun _ => .readable (.calls "fetch" [] [] fun _ => .raises ⟨.foreign "TimeoutError" "", none⟩)⟩

/-- A script that dies of what has no text. -/
def dyingMute : Job := ⟨true, none, fun _ => .readable (.raises .mute)⟩

theorem legible_of_timingOut (i : Interpreter) (message : String)
    (refused : (timingOut.source i).MayRefuse message) : Legible message := by
  rcases refused with _ | raised
  generalize same : (⟨.foreign "MontySyntaxError" message, _⟩ : Raised) = r at raised
  cases raised with
  | afterCall outcome later =>
    cases later
    have name := (Fault.foreign.inj (Raised.mk.inj same).1).1
    exact absurd name (by decide)

theorem legible_of_dyingMute (i : Interpreter) (message : String)
    (refused : (dyingMute.source i).MayRefuse message) : Legible message := by
  rcases refused with _ | raised
  generalize same : (⟨.foreign "MontySyntaxError" message, _⟩ : Raised) = r at raised
  cases raised
  cases (Raised.mk.inj same).1

end Runner

end OptionHost
