import OptionHost.Fault
import OptionHost.Journal

/-!
# Reports

What came of a piece of work, a result or a fault, with the records that were written on the
way. Work stops at its first fault and keeps what was written until then.
-/

namespace OptionHost

structure Report (α : Type) where
  records : List Record
  outcome : Except Fault α

namespace Report

def pure {α : Type} (a : α) : Report α := ⟨[], .ok a⟩

def bind {α β : Type} (first : Report α) (next : α → Report β) : Report β :=
  match first.outcome with
  | .error fault => ⟨first.records, .error fault⟩
  | .ok a => ⟨first.records ++ (next a).records, (next a).outcome⟩

instance : Monad Report where
  pure := Report.pure
  bind := Report.bind

def say (r : Record) : Report Unit := ⟨[r], .ok ()⟩

def fail {α : Type} (fault : Fault) : Report α := ⟨[], .error fault⟩

def ofExcept {α : Type} (e : Except Fault α) : Report α := ⟨[], e⟩

instance : LawfulMonad Report := LawfulMonad.mk' Report
  (by
    rintro α ⟨records, outcome⟩
    cases outcome <;> simp [Functor.map, Report.bind, Report.pure])
  (by
    intro α β a f
    simp [Bind.bind, Report.bind, Pure.pure, Report.pure])
  (by
    rintro α β γ ⟨records, outcome⟩ f g
    cases outcome with
    | error fault => rfl
    | ok a =>
      cases h : (f a).outcome <;> simp [Bind.bind, Report.bind, h, List.append_assoc])

end Report

end OptionHost
