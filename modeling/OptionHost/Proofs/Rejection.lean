import Mathlib.Logic.Basic
import OptionHost.Proofs.Evaluation
import OptionHost.Proofs.Requests
import OptionHost.Proofs.Snapshot

/-!
# Rejections and the report of an evaluation

An evaluation keeps a list of the option errors of its accessors. The journal of the host holds
every call of an accessor, so the two can be compared: the list is what the journal says, at every
host that can be reached. What an evaluation reports can then be read off the journal. It does not
depend on how a script dealt with a rejected call.
-/

namespace OptionHost

/-- The option error of a call that an evaluation made through an accessor. -/
def Entry.rejection? (run : Nat) : Entry → Option Raised
  | .accessed id _ (.error r) => if id = run ∧ r.fault.isOptionError = true then some r else none
  | _ => none

/-- The option errors of the calls of an evaluation, the latest first. -/
def Host.rejections (h : Host) (run : Nat) : List Raised :=
  h.journal.filterMap (Entry.rejection? run)

/-- A host whose evaluations keep the books that its journal bears out. -/
structure Host.Booked (h : Host) : Prop where
  failures : ∀ id e, h.evaluations[id]? = some e → e.failures = h.rejections id
  fresh : ∀ id, h.evaluations.length ≤ id → h.rejections id = []

namespace Host.Booked

theorem ofStore (store : Store) : (Host.ofStore store).Booked := by
  constructor
  · rintro id e ⟨⟩
  · intro id _
    rfl

theorem of_same {h h' : Host} (booked : h.Booked) (evaluations : h'.evaluations = h.evaluations)
    (rejections : ∀ id, h'.rejections id = h.rejections id) : h'.Booked := by
  constructor
  · intro id e found
    rw [evaluations] at found
    rw [rejections]
    exact booked.failures id e found
  · intro id beyond
    rw [evaluations] at beyond
    rw [rejections]
    exact booked.fresh id beyond

theorem opened {h : Host} (booked : h.Booked) (bridge : Nat) :
    Host.Booked { h with evaluations := h.evaluations ++ [⟨bridge, false, []⟩] } := by
  constructor
  · intro id e found
    rcases Nat.lt_trichotomy id h.evaluations.length with before | rfl | beyond
    · rw [List.getElem?_append_left before] at found
      exact booked.failures id e found
    · rw [List.getElem?_concat_length] at found
      cases found
      exact (booked.fresh _ (Nat.le_refl _)).symm
    · rw [List.getElem?_eq_none] at found
      · cases found
      · rw [List.length_append]
        exact beyond
  · intro id beyond
    rw [List.length_append] at beyond
    exact booked.fresh id (Nat.le_of_succ_le beyond)

theorem finished {h : Host} (booked : h.Booked) (run : Nat) :
    Host.Booked { h with
      evaluations := h.evaluations.modify run fun e => { e with finished := true } } := by
  constructor
  · intro id e found
    rw [List.getElem?_modify] at found
    obtain ⟨before, held, rfl⟩ := Option.map_eq_some_iff.mp found
    split
    · exact booked.failures id before held
    · exact booked.failures id before held
  · intro id beyond
    rw [List.length_modify] at beyond
    exact booked.fresh id beyond

theorem rejection?_accessed (run id : Nat) (a : Accessor) (outcome : Outcome) :
    Entry.rejection? id (.accessed run a outcome) =
      if run = id then optionError? outcome else none := by
  cases outcome with
  | ok v => exact (ite_self none).symm
  | error r =>
    unfold Entry.rejection? optionError?
    dsimp only
    rw [ite_and]

/-- What a call of an accessor adds to the rejections of an evaluation. -/
theorem rejections_accessed (h : Host) (run id : Nat) (a : Accessor) (outcome : Outcome)
    (evaluations : List Evaluation) :
    Host.rejections { h with
        evaluations := evaluations, journal := .accessed run a outcome :: h.journal } id =
      (Entry.rejection? id (.accessed run a outcome)).toList ++ h.rejections id := by
  unfold Host.rejections
  rw [List.filterMap_cons]
  cases Entry.rejection? id (.accessed run a outcome) <;> rfl

/-- The evaluation that made a call takes its rejection down, and no other one does. -/
theorem failures_after (run id : Nat) (a : Accessor) (outcome : Outcome) (e : Evaluation) :
    (if run = id then e.after outcome else e).failures =
      (Entry.rejection? id (.accessed run a outcome)).toList ++ e.failures := by
  rw [rejection?_accessed]
  split
  · exact e.failures_after outcome
  · rfl

theorem accessed {h : Host} (booked : h.Booked) {run : Nat} (a : Accessor) (outcome : Outcome)
    (opened : run < h.evaluations.length) :
    Host.Booked { h with
      evaluations := h.evaluations.modify run (·.after outcome)
      journal := .accessed run a outcome :: h.journal } := by
  constructor
  · intro id e found
    rw [List.getElem?_modify] at found
    obtain ⟨before, held, rfl⟩ := Option.map_eq_some_iff.mp found
    rw [rejections_accessed, failures_after run id a outcome, booked.failures id before held]
  · intro id beyond
    rw [List.length_modify] at beyond
    have other : run ≠ id := by omega
    rw [rejections_accessed, booked.fresh id beyond, rejection?_accessed, if_neg other]
    rfl

end Host.Booked

theorem Entry.rejection?_of_isPlain {e : Entry} (plain : e.isPlain = true) (run : Nat) :
    e.rejection? run = none := by
  cases e with
  | accessed id a outcome => cases plain
  | _ => rfl

theorem Host.Move.booked {h h' : Host} (move : h.Move h') (booked : h.Booked) : h'.Booked := by
  cases move with
  | noted e plain =>
    refine booked.of_same rfl fun id => ?_
    exact List.filterMap_cons_none (Entry.rejection?_of_isPlain plain id)
  | stored step => exact booked.of_same rfl fun id => rfl
  | evaluationOpened bridge => exact booked.opened bridge
  | accessed id a outcome opened => exact booked.accessed a outcome opened
  | evaluationFinished id => exact booked.finished id
  | _ => exact booked.of_same rfl fun id => rfl

theorem Host.Path.booked {h h' : Host} (path : h.Path h') (booked : h.Booked) : h'.Booked := by
  induction path with
  | refl => exact booked
  | tail _ move ih => exact move.booked ih

theorem Host.accessed_of_rejections {h : Host} {run : Nat} {r : Raised}
    (member : r ∈ h.rejections run) : ∃ a, Entry.accessed run a (.error r) ∈ h.journal := by
  obtain ⟨entry, there, found⟩ := List.mem_filterMap.mp member
  cases entry with
  | accessed id a outcome =>
    cases outcome with
    | ok v => cases found
    | error failure =>
      obtain ⟨⟨rfl, -⟩, same⟩ := Option.ite_none_right_eq_some.mp found
      cases same
      exact ⟨a, there⟩
  | _ => cases found

namespace Runner

open Act

/-- The error of an option is not one of scripting. -/
theorem because_ne {r e : Raised} (option : r.fault.isOptionError = true)
    (script : e.fault.isScriptError = true) : r.because e.fault ≠ e := by
  intro same
  have faults : (r.because e.fault).fault = e.fault := congrArg Raised.fault same
  rw [← faults] at script
  obtain ⟨m, fault⟩ | ⟨o, v, reason, fault⟩ | ⟨c, fault⟩ :=
    (Fault.isOptionError_iff r.fault).mp option
  all_goals
    change r.fault.isScriptError = true at script
    rw [fault] at script
    cases script

theorem isOptionError_of_mem {h : Host} {run : Nat} {r : Raised} (member : r ∈ h.rejections run) :
    r.fault.isOptionError = true := by
  obtain ⟨entry, _, found⟩ := List.mem_filterMap.mp member
  cases entry with
  | accessed id a outcome =>
    rw [Host.Booked.rejection?_accessed] at found
    exact isOptionError_of_optionError? (Option.ite_none_right_eq_some.mp found).2
  | _ => cases found

/-- What an evaluation reports when its engine reports an error of scripting: that error if no
call of its accessors was rejected, and the last rejection otherwise, on account of the error. -/
theorem report_of_scriptError {h : Host} (booked : h.Booked) {run : Nat}
    (opened : run < h.evaluations.length) {e : Raised} (script : e.fault.isScriptError = true) :
    report ((h.evaluations[run]?).getD ⟨0, true, []⟩) (.error e) =
      match h.rejections run with
      | r :: _ => .error (r.because e.fault)
      | [] => .error e := by
  have failures := booked.failures run _ (List.getElem?_eq_getElem opened)
  rw [List.getElem?_eq_getElem opened, Option.getD_some]
  unfold report
  dsimp only
  cases rejections : h.rejections run with
  | nil => rw [if_pos script, failures, rejections]
  | cons r earlier => rw [if_pos script, failures, rejections]

/-- An evaluation on a reachable host, whose engine reports an error of scripting, for whatever
reason. The evaluation ends as soon as a script that was given up has ended. It reports the error
if and only if no call of its accessors was rejected; otherwise it reports the last rejection,
with the error as the cause, even if the script caught it and died of something else. -/
theorem evaluate_reports_iff {store : Store} {h h₂ : Host} (reached : (Host.ofStore store).Path h)
    {depth id : Nat} {job : Job} {runner : Runner} (found : h.runners[id]? = some runner)
    (admitted : refusal? runner job = none) {e : Raised} {rest : Option Behaviour}
    (died : runEngine runner.interpreter (runner.site (Session.respond depth) h)
      (names job h.evaluations.length) job (runner.entered h) = some (.ok (.error e, rest), h₂))
    (script : e.fault.isScriptError = true) :
    ∃ reported : Outcome,
      evaluate (Session.respond depth) id job h =
          (afterwards (runner.site (Session.respond depth) h) (names job h.evaluations.length) rest
            (expired h.evaluations.length h₂)).map (fun p => (reported, p.2)) ∧
        (reported = .error e ↔ h₂.rejections h.evaluations.length = []) ∧
        ∀ r earlier, h₂.rejections h.evaluations.length = r :: earlier →
          reported = .error (r.because e.fault) := by
  have engine := (runEngine_byMoves runner.interpreter (runner.site (Session.respond depth) h)
    (Session.respond_byMoves depth) (names job h.evaluations.length) job).path died
  have booked := Host.Path.booked (reached.trans ((entered_path runner h).trans engine))
    (.ofStore store)
  have opened : h.evaluations.length < h₂.evaluations.length := by
    have grown := Host.Path.evaluations_le engine
    simp only [entered, List.length_append, List.length_cons, List.length_nil] at grown
    omega
  have reported := report_of_scriptError booked opened script
  have evaluated : evaluate (Session.respond depth) id job h = _ := evaluate_apply found admitted
  rw [bind_of_ok died, finish_apply] at evaluated
  refine ⟨_, evaluated, ?_, ?_⟩
  · change report ((h₂.evaluations[h.evaluations.length]?).getD ⟨0, true, []⟩) (.error e) = _ ↔ _
    rw [reported]
    cases rejections : h₂.rejections h.evaluations.length with
    | nil => exact iff_of_true rfl rfl
    | cons r earlier =>
      have member : r ∈ h₂.rejections h.evaluations.length := rejections ▸ List.mem_cons_self
      refine iff_of_false ?_ (List.cons_ne_nil r earlier)
      intro same
      exact because_ne (isOptionError_of_mem member) script (Except.error.inj same)
  · intro r earlier rejections
    refine Eq.trans ?_ (reported.trans ?_)
    · rfl
    · rw [rejections]

/-- A script that writes a number to an option, catches the rejection, and dies of something
else. -/
def recovering : Job :=
  ⟨true, none, fun _ => .readable (.calls "opt_set_wrap" [.int 1] [] fun _ =>
    .raises ⟨.foreign "MontyRuntimeError" "boom", none⟩)⟩

theorem evaluate_reports_iff_recovering :
    ∃ h r h', (Host.ofStore default).Path h ∧
      evaluate (Session.respond 1) 0 recovering h = some (.error r, h') ∧
      r.fault.isOptionError = true ∧ r.cause = some (.failed (.reported "boom")) := by
  let runner : Runner := ⟨{ RunnerConfig.initial with engine := .text "monty" }, .monty, 0, false⟩
  let h : Host :=
    { Host.ofStore default with
      bridges := [true], bridge := some 0, runners := [runner], runner := some 0 }
  let site := runner.site (Session.respond 1) h
  let boom : Raised := ⟨.foreign "MontyRuntimeError" "boom", none⟩
  have reached : (Host.ofStore default).Path h :=
    (Relation.ReflTransGen.single .bridgeOpened).tail (.runnerOpened runner)
  have found : h.runners[0]? = some runner := rfl
  have admitted : refusal? runner recovering = none :=
    refusal?_eq_none (.inl rfl) rfl
      ((Table.collisions_eq_nil_iff []).mpr fun _ _ => List.not_mem_nil)
  have step : ∃ r h₂, Monty.Step site (Monty.implementations (names recovering 0))
      ⟨[], .calls "opt_set_wrap" [.int 1] [] fun _ => .raises boom,
        Monty.begun site (names recovering 0) (runner.entered h)⟩
      ⟨[.error r], .raises boom, h₂⟩ ∧
        h₂.rejections 0 = [r] ∧ r.fault.isOptionError = true := by
    refine ⟨_, _, .calls rfl, ?_, ?_⟩
    · rfl
    · rfl
  obtain ⟨r, h₂, step, rejections, isOptionError⟩ := step
  have settled : Monty.settle boom h₂ = some (.ok (reportedFailure boom), h₂) := rfl
  have ended := Monty.evaluateAwaited_of_ended
    ((Monty.driven_of_steps (.single step)).trans (Monty.drive_raises settled))
  have died : runEngine runner.interpreter (runner.site (Session.respond 1) h)
      (names recovering h.evaluations.length) recovering (runner.entered h) =
        some (.ok (.error (reportedFailure boom), none), h₂) := bind_of_ok ended
  obtain ⟨reported, evaluated, _, last⟩ := evaluate_reports_iff reached found admitted died rfl
  rw [last r [] rejections] at evaluated
  exact ⟨h, r.because (.failed (.reported "boom")), _, reached, evaluated, isOptionError, rfl⟩

end Runner

end OptionHost
