import OptionHost.Proofs.OptionScript
import OptionHost.Proofs.Snapshot
import OptionHost.Proofs.UnderWay

/-!
# Revocation of access

What a script was given to reach the options with is taken away from it in two ways. The
accessors of an evaluation are worthless from the moment that the evaluation is over, and the
bridge of a runner is detached when the runner is closed, also under the feet of a script. Neither
is ever undone, whatever the host does later.
-/

namespace OptionHost

open Act
open Host (Conduct Telling)
open Relation (ReflTransGen)

/-! ## Deeds -/

/-- One thing that a host does to its bridges and runners, or a move that leaves them alone. -/
inductive Host.Deed (h : Host) : Host → Prop where
  | moved {h' : Host} (move : h.Move h') (bridges : h'.bridges = h.bridges)
      (runners : h'.runners = h.runners) : Deed h h'
  | bridgeOpened :
      Deed h { h with bridges := h.bridges ++ [true], bridge := some h.bridges.length }
  | bridgeDetached (bridge : Nat) : Deed h { h with bridges := h.bridges.set bridge false }
  | runnerOpened (config : RunnerConfig) (i : Interpreter) :
      Deed h { h with
        bridges := h.bridges ++ [true]
        bridge := some h.bridges.length
        runners := h.runners ++ [⟨config, i, h.bridges.length, false⟩]
        runner := some h.runners.length }
  | runnerClosed {id : Nat} {runner : Runner} (found : h.runners[id]? = some runner) :
      Deed h { h with
        bridges := h.bridges.set runner.bridge false
        runners := h.runners.modify id fun runner => { runner with closed := true } }

/-- A host comes from another one by deeds. -/
abbrev Host.Deeds : Host → Host → Prop := ReflTransGen Host.Deed

namespace Host

variable {h h' : Host}

theorem Deed.path (deed : h.Deed h') : h.Path h' := by
  cases deed with
  | moved move => exact .single move
  | bridgeOpened => exact .single .bridgeOpened
  | bridgeDetached bridge => exact .single (.bridgeDetached bridge)
  | runnerOpened config i => exact .head .bridgeOpened (.single (.runnerOpened _))
  | runnerClosed found => exact .head (.bridgeDetached _) (.single (.runnerClosed _))

theorem Deeds.path (deeds : h.Deeds h') : h.Path h' := by
  induction deeds with
  | refl => exact .refl
  | tail _ deed ih => exact ih.trans deed.path

theorem Deeds.noted (h : Host) {e : Entry} (plain : e.isPlain = true) :
    h.Deeds { h with journal := e :: h.journal } :=
  .single (.moved (.noted e plain) rfl rfl)

theorem Telling.deeds {change : Change} {ids : List ListenerId}
    (telling : Telling Host.Deeds change ids h h') : h.Deeds h' := by
  induction telling with
  | done h => exact .refl
  | noted quiet _ ih => exact (Deeds.noted _ (Entry.isPlain_of_isQuiet quiet)).trans ih
  | told heard _ ih => exact (Deeds.noted _ rfl).trans (heard.trans ih)
  | cut heard => exact (Deeds.noted _ rfl).trans (heard.trans (Deeds.noted _ rfl))

theorem entered_deeds (runner : Runner) (h : Host) : h.Deeds (runner.entered h) := by
  have opened : h.Deed { h with evaluations := h.evaluations ++ [⟨runner.bridge, false, []⟩] } :=
    .moved (.evaluationOpened runner.bridge) rfl rfl
  unfold Runner.entered
  split
  · exact (ReflTransGen.single opened).tail (.moved (.injected h.evaluations.length) rfl rfl)
  · exact .single opened

instance : Conduct Host.Deeds where
  refl _ := .refl
  trans first second := first.trans second
  noted h _ quiet := Deeds.noted h (Entry.isPlain_of_isQuiet quiet)
  stored step := .single (.moved (.stored step) rfl rfl)
  wrote written telling := .head (.moved (.stored (.write written)) rfl rfl) telling.deeds
  levelSet _ level := .single (.moved (.levelSet level) rfl rfl)
  bridgeOpened _ := .single .bridgeOpened
  bridgeDetached _ bridge := .single (.bridgeDetached bridge)
  runnerOpened _ config i := .single (.runnerOpened config i)
  runnerClosed found := .single (.runnerClosed found)
  listenerAdded _ id listener := .single (.moved (.listenerAdded id listener) rfl rfl)
  accessed found _ called a outcome _ := by
    refine called.tail (.moved (.accessed _ a outcome ?_) rfl rfl)
    have opened := (List.getElem?_eq_some_iff.mp found).1
    exact Nat.lt_of_lt_of_le opened (Host.Path.evaluations_le called.path)
  evaluated found ran rest :=
    (entered_deeds _ _).trans (ran.trans (.head (.moved (.evaluationFinished _) rfl rfl) rest))

/-! ## Evaluations that are over -/

def Ended (h : Host) (run : Nat) : Prop :=
  ∃ e : Evaluation, h.evaluations[run]? = some e ∧ e.finished = true

theorem Move.ended {run : Nat} (move : h.Move h') (ended : h.Ended run) : h'.Ended run := by
  obtain ⟨e, found, finished⟩ := ended
  have opened := (List.getElem?_eq_some_iff.mp found).1
  cases move with
  | evaluationOpened bridge => exact ⟨e, (List.getElem?_append_left opened).trans found, finished⟩
  | accessed id a outcome =>
    by_cases own : id = run
    · refine ⟨e.after outcome, ?_, (e.after_finished outcome).trans finished⟩
      simp [own, found]
    · refine ⟨e, ?_, finished⟩
      simp [own, found]
  | evaluationFinished id =>
    by_cases own : id = run
    · refine ⟨{ e with finished := true }, ?_, rfl⟩
      simp [own, found]
    · refine ⟨e, ?_, finished⟩
      simp [own, found]
  | _ => exact ⟨e, found, finished⟩

/-- No evaluation is ever taken up again. -/
theorem Path.ended {run : Nat} (path : h.Path h') (ended : h.Ended run) : h'.Ended run := by
  induction path with
  | refl => exact ended
  | tail _ move ih => exact move.ended ih

theorem ended_expired {run bridge : Nat} (runs : h.Runs run bridge) :
    (Runner.expired run h).Ended run := by
  obtain ⟨e, found, -⟩ := runs
  refine ⟨{ e with finished := true }, ?_, rfl⟩
  simp [Runner.expired, found]

/-- An accessor of an evaluation that is over only fails, and leaves the host as it is. -/
theorem Ended.accessWithin {run : Nat} (ended : h.Ended run) (respond : Response) (a : Accessor)
    (args : List Value) (kwargs : Entries) :
    accessWithin respond run a args kwargs h =
      some (.error ⟨.hostState (.abandoned a.name), none⟩, h) := by
  obtain ⟨e, found, finished⟩ := ended
  unfold Act.accessWithin
  rw [bind_of_ok (show evaluation run h = some (.ok _, h) from rfl), found, Option.getD_some,
    finished]
  rfl

/-! ## Bridges that are detached -/

def Severed (h : Host) (bridge : Nat) : Prop := h.bridges[bridge]? = some false

theorem getElem?_set_of_some {bridges : List Bool} {i : Nat} {attached : Bool}
    (found : bridges[i]? = some attached) (bridge : Nat) :
    (bridges.set bridge false)[i]? = some (if bridge = i then false else attached) := by
  have inside := (List.getElem?_eq_some_iff.mp found).1
  by_cases own : bridge = i
  · simp [own, inside]
  · simp [own, found]

theorem Deed.severed {bridge : Nat} (deed : h.Deed h') (severed : h.Severed bridge) :
    h'.Severed bridge := by
  have inside := (List.getElem?_eq_some_iff.mp severed).1
  cases deed with
  | moved move bridges => exact (congrArg (·[bridge]?) bridges).trans severed
  | bridgeOpened => exact (List.getElem?_append_left inside).trans severed
  | bridgeDetached other => exact (getElem?_set_of_some severed other).trans (by simp)
  | runnerOpened config i => exact (List.getElem?_append_left inside).trans severed
  | runnerClosed found => exact (getElem?_set_of_some severed _).trans (by simp)

/-- No bridge is ever attached again. -/
theorem Deeds.severed {bridge : Nat} (deeds : h.Deeds h') (severed : h.Severed bridge) :
    h'.Severed bridge := by
  induction deeds with
  | refl => exact severed
  | tail _ deed ih => exact deed.severed ih

/-- A well-formed call on a detached bridge only fails, and leaves the host as it is. -/
theorem Severed.access {bridge : Nat} (severed : h.Severed bridge) (respond : Response)
    {a : Accessor} {args : List Value} {kwargs : Entries} {v : Value}
    (formed : a.argument args kwargs = .ok v) :
    Act.access respond bridge a args kwargs h =
      some (.error ⟨.hostState (.detached a.option.name), none⟩, h) := by
  have detached : h.bridges.getD bridge false = false := by
    rw [List.getD_eq_getElem?_getD, severed]
    rfl
  unfold Act.access
  rw [bind_of_ok (show isAttached bridge h = some (.ok false, h) from detached ▸ rfl)]
  unfold Bridge.call
  rw [formed]
  cases a with
  | getter o => rfl
  | setter o => rfl

/-- Each runner has a bridge of its own, which is detached once the runner is closed. -/
def Guarded (h : Host) : Prop :=
  ∀ (id : Nat) (runner : Runner), h.runners[id]? = some runner →
    ∃ attached, h.bridges[runner.bridge]? = some attached ∧
      (runner.closed = true → attached = false)

theorem Deed.guarded (deed : h.Deed h') (guarded : h.Guarded) : h'.Guarded := by
  -- A bridge that is detached takes nothing from what is asked of the others.
  have detached {bridge i : Nat} {attached closed : Bool}
      (found : h.bridges[i]? = some attached) (shut : closed = true → attached = false) :
      ∃ attached, (h.bridges.set bridge false)[i]? = some attached ∧
        (closed = true → attached = false) := by
    refine ⟨_, getElem?_set_of_some found bridge, fun isClosed => ?_⟩
    split
    · rfl
    · exact shut isClosed
  have opened {i : Nat} {attached : Bool} (found : h.bridges[i]? = some attached) :
      (h.bridges ++ [true])[i]? = some attached :=
    (List.getElem?_append_left (List.getElem?_eq_some_iff.mp found).1).trans found
  intro id runner at_
  cases deed with
  | moved move bridges runners =>
    rw [runners] at at_
    rw [bridges]
    exact guarded id runner at_
  | bridgeOpened =>
    obtain ⟨attached, found, shut⟩ := guarded id runner at_
    exact ⟨attached, opened found, shut⟩
  | bridgeDetached bridge =>
    obtain ⟨attached, found, shut⟩ := guarded id runner at_
    exact detached found shut
  | runnerOpened config i =>
    rcases Nat.lt_trichotomy id h.runners.length with before | own | beyond
    · obtain ⟨attached, found, shut⟩ :=
        guarded id runner ((List.getElem?_append_left before).symm.trans at_)
      exact ⟨attached, opened found, shut⟩
    · subst own
      cases List.getElem?_concat_length.symm.trans at_
      refine ⟨true, List.getElem?_concat_length, ?_⟩
      rintro ⟨⟩
    · have outside : (h.runners ++ [⟨config, i, h.bridges.length, false⟩])[id]? = none := by
        refine List.getElem?_eq_none ?_
        simp only [List.length_append, List.length_cons, List.length_nil]
        omega
      cases outside.symm.trans at_
  | @runnerClosed closing closed found =>
    obtain ⟨held, at_, same⟩ := Option.map_eq_some_iff.mp
      ((List.getElem?_modify _ closing h.runners id).symm.trans at_)
    obtain ⟨attached, onBridge, shut⟩ := guarded id held at_
    by_cases own : closing = id
    · subst own
      cases found.symm.trans at_
      rw [if_pos rfl] at same
      subst same
      exact ⟨false, (getElem?_set_of_some onBridge _).trans (by simp), fun _ => rfl⟩
    · rw [if_neg own] at same
      subst same
      exact detached onBridge shut

theorem guarded_ofStore (store : Store) : (Host.ofStore store).Guarded := by
  rintro id runner ⟨⟩

theorem Deeds.guarded (deeds : h.Deeds h') (guarded : h.Guarded) : h'.Guarded := by
  induction deeds with
  | refl => exact guarded
  | tail _ deed ih => exact deed.guarded ih

end Host

namespace Runner

/-- A runner is closed at once, or was closed before. -/
theorem close_cases {id : Nat} {runner : Runner} {h h' : Host} {out : Except Raised Unit}
    (found : h.runners[id]? = some runner) (e : close id h = some (out, h')) :
    out = .ok () ∧ (runner.closed = true ∧ h' = h ∨
      runner.closed = false ∧ h'.bridges = h.bridges.set runner.bridge false) := by
  unfold close at e
  rw [bind_of_ok (show at? id h = some (.ok (some runner), h) from found ▸ rfl)] at e
  dsimp only at e
  split at e
  · rename_i opened
    unfold detach at e
    rw [bind_assoc, modify_bind_apply, bind_of_ok (say_apply _ _), modify_bind_apply,
      say_apply] at e
    cases e
    exact ⟨rfl, .inr ⟨Bool.not_eq_true' _ ▸ opened, rfl⟩⟩
  · rename_i shut
    cases e
    exact ⟨rfl, .inl ⟨by simpa using shut, rfl⟩⟩

theorem severed_of_close {id : Nat} {runner : Runner} {h h' : Host} {out : Except Raised Unit}
    (guarded : h.Guarded) (found : h.runners[id]? = some runner)
    (e : close id h = some (out, h')) : h'.Severed runner.bridge := by
  obtain ⟨attached, onBridge, shut⟩ := guarded id runner found
  obtain ⟨-, ⟨closed, rfl⟩ | ⟨-, bridges⟩⟩ := close_cases found e
  · rw [shut closed] at onBridge
    exact onBridge
  · unfold Host.Severed
    rw [bridges, Host.getElem?_set_of_some onBridge, if_pos rfl]

/-- A script that turns wrapping off and returns. -/
def unwrapping : Job :=
  ⟨true, none, fun _ => .readable (.calls "opt_set_wrap" [.bool false] [] fun _ => .returns .null)⟩

end Runner

end OptionHost
