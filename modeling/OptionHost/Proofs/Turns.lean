import OptionHost.Proofs.EngineReports
import OptionHost.Proofs.Rejection
import OptionHost.Proofs.UnderWay

/-!
# Evaluations in turns

Evaluations that are open at the same time take turns: each of them is opened, makes calls of its
accessors, notes what it prints or is given, and comes to its end, by itself or since it is given
up. Between the turns the host goes about its own affairs, which may be whole evaluations too, and
so may a listener during a call. The turns of different evaluations come in any order; those of one
that runs alone, from its opening to its end, make up the evaluation as its runner carries it out.
-/

namespace OptionHost

open Act
open Host (Chronicle)

inductive Turn where
  | opens (runner : Nat)
  | calls (run : Nat) (a : Accessor) (args : List Value) (kwargs : Entries)
  | notes (e : Entry) (quiet : e.isQuiet = true)
  /-- The engine has an outcome for the evaluation, which may be that it is given up. -/
  | ends (run : Nat) (outcome : Outcome)
  | asks (request : Request)

namespace Turn

def enter (id : Nat) : Act Value := do
  match ← Runner.at? id with
  | none => fail (.script .runnerClosed)
  | some runner =>
    modify runner.entered
    return .null

def take (depth : Nat) : Turn → Act Value
  | .opens id => enter id
  | .calls run a args kwargs => accessWithin (Session.respond depth) run a args kwargs
  | .notes e _ => do
    record e
    return .null
  | .ends run outcome =>
    Runner.finish ⟨run, RunnerConfig.initial, Session.respond depth⟩ [] outcome none
  | .asks request => do return (← Session.perform (Session.respond depth) request).toValue

def isScripted : Turn → Bool
  | .calls .. | .notes .. => true
  | _ => false

def isEnd : Turn → Bool
  | .ends .. => true
  | _ => false

variable {depth id run : Nat} {h h' : Host} {out outcome : Outcome}

theorem opens_cases (e : (opens id).take depth h = some (out, h')) :
    (∃ r, out = .error r ∧ h' = h) ∨
      ∃ runner, h.runners[id]? = some runner ∧ out = .ok .null ∧ h' = runner.entered h := by
  change enter id h = some (out, h') at e
  unfold enter at e
  rw [bind_of_ok (show Runner.at? id h = some (.ok h.runners[id]?, h) from rfl)] at e
  cases found : h.runners[id]? with
  | none =>
    rw [found] at e
    cases e
    exact .inl ⟨_, rfl, rfl⟩
  | some runner =>
    rw [found] at e
    cases e
    exact .inr ⟨runner, rfl, rfl, rfl⟩

theorem opens_take {runner : Runner} (found : h.runners[id]? = some runner) :
    (opens id).take depth h = some (.ok .null, runner.entered h) := by
  change enter id h = _
  unfold enter
  rw [bind_of_ok (show Runner.at? id h = some (.ok (some runner), h) from found ▸ rfl)]
  rfl

theorem ends_take (depth run : Nat) (outcome : Outcome) (h : Host) :
    (ends run outcome).take depth h =
      some (Runner.report ((h.evaluations[run]?).getD ⟨0, true, []⟩) outcome,
        Runner.expired run h) :=
  Runner.finish_apply _ [] outcome none h

theorem ends_cases (e : (ends run outcome).take depth h = some (out, h')) :
    out = Runner.report ((h.evaluations[run]?).getD ⟨0, true, []⟩) outcome ∧
      h' = Runner.expired run h := by
  rw [ends_take] at e
  cases e
  exact ⟨rfl, rfl⟩

theorem asks_along {R : Host → Host → Prop} [Host.Conduct R] (request : Request) :
    ((asks request).take depth).Along R :=
  Along.bind (Session.perform_along (Session.respond_along depth) request) fun _ => Along.pure _

theorem take_path {t : Turn} (e : t.take depth h = some (out, h')) : h.Path h' := by
  cases t with
  | opens id =>
    obtain ⟨_, _, rfl⟩ | ⟨runner, _, _, rfl⟩ := opens_cases e
    · exact .refl
    · exact Runner.entered_path runner h
  | calls run a args kwargs => exact accessWithin_along (Session.respond_along depth) _ _ _ _ e
  | notes entry quiet =>
    cases e
    exact Chronicle.noted h quiet
  | ends run outcome =>
    obtain ⟨_, rfl⟩ := ends_cases e
    exact .single (.evaluationFinished run)
  | asks request => exact asks_along request e

/-- An evaluation under way is ended by no turn but its own end. -/
theorem runs_kept {t : Turn} {bridge : Nat} (e : t.take depth h = some (out, h'))
    (runs : h.Runs run bridge) (other : ∀ outcome, t ≠ ends run outcome) :
    h'.Runs run bridge := by
  cases t with
  | opens id =>
    obtain ⟨_, _, rfl⟩ | ⟨runner, _, _, rfl⟩ := opens_cases e
    · exact runs
    · exact runs.spared (Host.Spares.entered runner h)
  | calls id a args kwargs =>
    exact runs.spared (accessWithin_along (Session.respond_along depth) _ _ _ _ e)
  | notes entry quiet =>
    cases e
    exact runs
  | ends id outcome =>
    obtain ⟨_, rfl⟩ := ends_cases e
    have apart : id ≠ run := by
      rintro rfl
      exact other outcome rfl
    obtain ⟨open_, found, onBridge, underWay⟩ := runs
    refine ⟨open_, ?_, onBridge, underWay⟩
    simp [Runner.expired, apart, found]
  | asks request => exact runs.spared (asks_along request e)

end Turn

/-- Turns are taken one after the other, each with an outcome. How they are taken is left open. -/
inductive Turns (take : Turn → Act Value) : Host → List (Turn × Outcome) → Host → Prop where
  | done (h : Host) : Turns take h [] h
  | taken {t : Turn} {out : Outcome} {ts : List (Turn × Outcome)} {h h₁ h' : Host}
      (first : take t h = some (out, h₁)) (rest : Turns take h₁ ts h') :
      Turns take h ((t, out) :: ts) h'

namespace Turns

variable {take : Turn → Act Value} {depth : Nat} {ts us : List (Turn × Outcome)}
  {h h₁ h' : Host}

theorem append (first : Turns take h ts h₁) (rest : Turns take h₁ us h') :
    Turns take h (ts ++ us) h' := by
  induction first with
  | done h => exact rest
  | taken first _ ih => exact .taken first (ih rest)

theorem split (turns : Turns take h (ts ++ us) h') :
    ∃ h₁, Turns take h ts h₁ ∧ Turns take h₁ us h' := by
  induction ts generalizing h with
  | nil => exact ⟨h, .done h, turns⟩
  | cons p ts ih =>
    cases turns with
    | taken first rest =>
      obtain ⟨h₁, before, after⟩ := ih rest
      exact ⟨h₁, .taken first before, after⟩

theorem path (turns : Turns (Turn.take depth) h ts h') : h.Path h' := by
  induction turns with
  | done h => exact .refl
  | taken first _ ih => exact (Turn.take_path first).trans ih

theorem runs {run bridge : Nat} (turns : Turns (Turn.take depth) h ts h')
    (runs : h.Runs run bridge) (unended : ∀ outcome out, (Turn.ends run outcome, out) ∉ ts) :
    h'.Runs run bridge := by
  induction turns with
  | done h => exact runs
  | taken first _ ih =>
    refine ih (Turn.runs_kept first runs ?_) ?_
    · rintro outcome rfl
      exact unended outcome _ List.mem_cons_self
    · intro outcome out mem
      exact unended outcome out (List.mem_cons_of_mem _ mem)

end Turns

/-! ## Evaluations that run alone -/

/-- From one host to another one a script takes turns. -/
def Host.Talks (depth : Nat) (h h' : Host) : Prop :=
  ∃ ts, Turns (Turn.take depth) h ts h' ∧ ∀ p ∈ ts, p.1.isScripted = true

namespace Host.Talks

variable {depth : Nat}

theorem single {t : Turn} {h h' : Host} {out : Outcome} (scripted : t.isScripted = true)
    (took : t.take depth h = some (out, h')) : h.Talks depth h' := by
  refine ⟨[(t, out)], .taken took (.done h'), ?_⟩
  intro p mem
  rw [List.mem_singleton.mp mem]
  exact scripted

instance : Chronicle (Host.Talks depth) where
  refl h := ⟨[], .done h, fun _ mem => by cases mem⟩
  trans := by
    rintro h h₁ h₂ ⟨ts, first, scripted⟩ ⟨us, second, scripted'⟩
    refine ⟨ts ++ us, first.append second, ?_⟩
    intro p mem
    rcases List.mem_append.mp mem with early | late
    · exact scripted p early
    · exact scripted' p late
  noted h e quiet := single (t := .notes e quiet) rfl rfl

end Host.Talks

/-- The outcome of an engine is no option error: what it passes on of one is an error of scripting. -/
def Wrapped (outcome : Outcome) : Prop := ∀ r, outcome = .error r → r.fault.isOptionError = false

theorem unreadable_wrapped (interpreterClass message : String) :
    (unreadable interpreterClass message).fault.isOptionError = false := by
  unfold unreadable
  split
  · rfl
  · split <;> rfl

theorem Fault.isOptionError_of_isScriptError {fault : Fault} (script : fault.isScriptError = true) :
    fault.isOptionError = false := by
  cases fault with
  | option message => cases script
  | rejected option value reason => cases script
  | hostState cause => cases script
  | _ => rfl

namespace Runner

/-- Only a stand-in for an interpreter lets option errors through. -/
theorem runEngine_wrapped {i : Interpreter} (real : i ≠ .standIn) (site : Site)
    (globals : Table) (job : Job) :
    (runEngine i site globals job).Gives fun p => Wrapped p.1 :=
  runEngine_blames (fun _ => Fault.isOptionError_of_isScriptError) real site globals
    (fun _ _ _ => unreadable_wrapped _ _) (fun _ _ _ => rfl) fun _ => rfl

/-- An evaluation that is not refused is opened, its script takes turns, and it ends; a script that
was given up goes on taking turns. -/
theorem evaluate_turns {depth id : Nat} {job : Job} {h h' : Host} {runner : Runner}
    {out : Outcome} (found : h.runners[id]? = some runner) (admitted : refusal? runner job = none)
    (e : evaluate (Session.respond depth) id job h = some (out, h')) :
    ∃ ts outcome us,
      Turns (Turn.take depth) h ((.opens id, .ok .null) ::
        (ts ++ (.ends h.evaluations.length outcome, out) :: us)) h' ∧
      (∀ p ∈ ts ++ us, p.1.isScripted = true) ∧
      (runner.interpreter ≠ .standIn → Wrapped outcome) := by
  obtain ⟨outcome, rest, h₂, ended, ran, rfl, went⟩ := evaluate_cases found admitted e
  have site : (runner.site (Session.respond depth) h).Along (Host.Talks depth) := by
    intro run a args kwargs g out g' called
    exact .single (t := .calls run a args kwargs) rfl called
  obtain ⟨ts, first, scripted⟩ := runEngine_alongSite _ _ site _ _ ran
  obtain ⟨us, second, scripted'⟩ := afterwards_alongSite _ site _ _ went
  refine ⟨ts, outcome, us, .taken (Turn.opens_take found) ?_, ?_, ?_⟩
  · exact first.append (.taken (Turn.ends_take depth _ outcome h₂) second)
  · intro p mem
    rcases List.mem_append.mp mem with early | late
    · exact scripted p early
    · exact scripted' p late
  · intro real
    exact runEngine_wrapped real _ _ _ ran

end Runner

end OptionHost
