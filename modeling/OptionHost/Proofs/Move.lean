import Mathlib.Logic.Relation
import OptionHost.Proofs.Act

/-!
# What an act can do to a host

Every act takes a host to another one by single moves. A move changes the store by one step of
its life, notes something in the journal, or changes the books on bridges, runners, listeners and
evaluations. The moves of an act say nothing about its outcome; what they leave alone is left
alone by every act, however deep the responses of listeners nest.
-/

namespace OptionHost

open Relation (ReflTransGen)

/-- One step in the life of a store, with the write that it consists of if it is one. -/
inductive Store.Step : Store → Option Change → Store → Prop where
  | start {s t : Store} (e : s.start = .ok t) : Step s none t
  | close (s : Store) : Step s none s.close
  | write {s t : Store} {option value : Value} {change : Change}
      (e : s.write option value = .ok (change, t)) : Step s (some change) t
  | register (s : Store) (id : ListenerId) : Step s none (s.register id)
  | unregister {s t : Store} {id : ListenerId} (e : s.unregister id = .ok t) : Step s none t

/-- An entry that goes with no change to the store or to an evaluation. -/
def Entry.isPlain : Entry → Bool
  | .stored .. | .accessed .. => false
  | _ => true

/-- One change to a host. -/
inductive Host.Move (h : Host) : Host → Prop where
  | noted (e : Entry) (plain : e.isPlain = true) : Move h { h with journal := e :: h.journal }
  | stored {t : Store} {write : Option Change} (step : h.store.Step write t) :
      Move h { h with store := t, journal := .stored t write :: h.journal }
  | levelSet (level : Level) : Move h { h with level := level }
  | bridgeOpened :
      Move h { h with bridges := h.bridges ++ [true], bridge := some h.bridges.length }
  | bridgeDetached (bridge : Nat) : Move h { h with bridges := h.bridges.set bridge false }
  | runnerOpened (runner : Runner) :
      Move h { h with runners := h.runners ++ [runner], runner := some h.runners.length }
  | runnerClosed (id : Nat) :
      Move h
        { h with runners := h.runners.modify id fun runner => { runner with closed := true } }
  | evaluationOpened (bridge : Nat) :
      Move h { h with evaluations := h.evaluations ++ [⟨bridge, false, []⟩] }
  | accessed (id : Nat) (a : Accessor) (outcome : Outcome) (opened : id < h.evaluations.length) :
      Move h { h with
        evaluations := h.evaluations.modify id (·.after outcome)
        journal := .accessed id a outcome :: h.journal }
  | evaluationFinished (id : Nat) :
      Move h { h with evaluations := h.evaluations.modify id fun e =>
        { e with finished := true } }
  | injected (id : Nat) : Move h { h with injected := some id }
  | listenerAdded (id : ListenerId) (listener : Listener) :
      Move h { h with listeners := h.listeners ++ [(id, listener)] }

/-- A host comes from another one by moves. -/
abbrev Host.Path : Host → Host → Prop := ReflTransGen Host.Move

/-- No evaluation is ever forgotten. -/
theorem Host.Move.evaluations_le {h h' : Host} (move : h.Move h') :
    h.evaluations.length ≤ h'.evaluations.length := by
  cases move with
  | evaluationOpened bridge =>
    simp only [List.length_append]
    omega
  | accessed id a outcome opened => simp only [List.length_modify, Nat.le_refl]
  | evaluationFinished id => simp only [List.length_modify, Nat.le_refl]
  | _ => exact Nat.le_refl _

theorem Host.Path.evaluations_le {h h' : Host} (path : h.Path h') :
    h.evaluations.length ≤ h'.evaluations.length := by
  induction path with
  | refl => exact Nat.le_refl _
  | tail _ move ih => exact Nat.le_trans ih move.evaluations_le

end OptionHost
