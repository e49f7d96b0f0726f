import OptionHost.Report

/-!
# Outcomes of work that may fail

What the parts of a piece of work gave if the whole of it gave a result, and which of them failed
if it failed.
-/

namespace OptionHost

namespace Except

variable {ε ε' α β : Type}

/-- Both parts of a result that comes of two. -/
theorem bind_eq_ok {x : Except ε α} {f : α → Except ε β} {b : β}
    (e : x >>= f = .ok b) : ∃ a, x = .ok a ∧ f a = .ok b := by
  cases x with
  | error r => cases e
  | ok a => exact ⟨a, rfl, e⟩

theorem map_eq_ok {x : Except ε α} {f : α → β} {b : β} (e : x.map f = .ok b) :
    ∃ a, x = .ok a ∧ f a = b := by
  cases x with
  | error r => cases e
  | ok a => exact ⟨a, rfl, Except.ok.inj e⟩

theorem mapError_eq_ok {x : Except ε α} {f : ε → ε'} {a : α} :
    x.mapError f = .ok a ↔ x = .ok a := by
  constructor
  · intro e
    cases x <;> cases e
    rfl
  · rintro rfl
    rfl

/-- A piece of work that fails does so in its first part or, after that, in the second. -/
theorem bind_eq_error {x : Except ε α} {f : α → Except ε β} {r : ε} (e : x >>= f = .error r) :
    x = .error r ∨ ∃ a, x = .ok a ∧ f a = .error r := by
  cases x with
  | error s => exact .inl (by cases e; rfl)
  | ok a => exact .inr ⟨a, rfl, e⟩

/-- What is made of a result adds no failure. -/
theorem bind_pure_eq_error {x : Except ε α} {f : α → β} {r : ε}
    (e : (x >>= fun a => pure (f a)) = .error r) : x = .error r := by
  cases x <;> cases e
  rfl

theorem map_eq_error {x : Except ε α} {f : α → β} {r : ε} :
    x.map f = .error r ↔ x = .error r := by
  constructor
  · intro e
    cases x <;> cases e
    rfl
  · rintro rfl
    rfl

theorem mapError_eq_error {x : Except ε α} {f : ε → ε'} {r : ε'} :
    x.mapError f = .error r ↔ ∃ s, x = .error s ∧ f s = r := by
  constructor
  · intro e
    cases x <;> cases e
    exact ⟨_, rfl, rfl⟩
  · rintro ⟨s, rfl, rfl⟩
    rfl

theorem toOption_eq_some {x : Except ε α} {a : α} : x.toOption = some a ↔ x = .ok a := by
  cases x <;> simp [Except.toOption]

theorem mapM_eq_error {f : α → Except ε β} {items : List α} {r : ε}
    (e : items.mapM f = .error r) : ∃ a ∈ items, f a = .error r := by
  induction items with
  | nil => cases e
  | cons a rest ih =>
    rw [List.mapM_cons] at e
    rcases bind_eq_error e with e | ⟨_, _, e⟩
    · exact ⟨a, List.mem_cons_self, e⟩
    · rcases bind_eq_error e with e | ⟨_, _, e⟩
      · obtain ⟨b, mem, e⟩ := ih e
        exact ⟨b, List.mem_cons_of_mem _ mem, e⟩
      · cases e

end Except

namespace Report

variable {α β : Type}

theorem outcome_bind (first : Report α) (next : α → Report β) :
    (first >>= next).outcome = first.outcome >>= fun a => (next a).outcome := by
  obtain ⟨records, outcome⟩ := first
  cases outcome <;> rfl

end Report

end OptionHost
