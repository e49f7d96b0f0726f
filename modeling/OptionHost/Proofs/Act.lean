import OptionHost.Proofs.Outcome
import OptionHost.Session

/-!
# Running acts

An act carried out on a host ends with an outcome and the host afterwards, or has no result. The
equations below say which for every way of putting acts together, so that later modules never
open the monad itself.
-/

namespace OptionHost

namespace Act

variable {α β : Type}

@[simp] theorem pure_apply (a : α) (h : Host) : (pure a : Act α) h = some (.ok a, h) := rfl

@[simp] theorem throw_apply (r : Raised) (h : Host) :
    (throw r : Act α) h = some (.error r, h) := rfl

@[simp] theorem fail_apply (fault : Fault) (h : Host) :
    (fail fault : Act α) h = some (.error ⟨fault, none⟩, h) := rfl

@[simp] theorem get_apply (h : Host) : (get : Act Host) h = some (.ok h, h) := rfl

@[simp] theorem modify_apply (f : Host → Host) (h : Host) :
    (modify f : Act Unit) h = some (.ok (), f h) := rfl

theorem bind_apply (x : Act α) (f : α → Act β) (h : Host) :
    (x >>= f) h = (x h).bind fun p =>
      match p.1 with
      | .ok a => f a p.2
      | .error r => some (.error r, p.2) := by
  change (x h).bind _ = _
  congr 1
  funext p
  obtain ⟨outcome, h'⟩ := p
  cases outcome <;> rfl

theorem bind_of_ok {x : Act α} {f : α → Act β} {h h₁ : Host} {a : α}
    (hx : x h = some (.ok a, h₁)) : (x >>= f) h = f a h₁ := by
  rw [bind_apply, hx]
  rfl

theorem bind_of_error {x : Act α} {f : α → Act β} {h h₁ : Host} {r : Raised}
    (hx : x h = some (.error r, h₁)) : (x >>= f) h = some (.error r, h₁) := by
  rw [bind_apply, hx]
  rfl

theorem bind_of_none {x : Act α} {f : α → Act β} {h : Host} (hx : x h = none) :
    (x >>= f) h = none := by
  rw [bind_apply, hx]
  rfl

/-- What follows an act depends on nothing but what the act comes to. -/
theorem bind_congr_apply {x y : Act α} {h h₁ : Host} (same : x h = y h₁) (f : α → Act β) :
    (x >>= f) h = (y >>= f) h₁ := by
  rw [bind_apply, bind_apply, same]

/-- A result of acts in a row comes from a failure of the first, or from both. -/
theorem bind_eq_some {x : Act α} {f : α → Act β} {h h' : Host} {out : Except Raised β}
    (e : (x >>= f) h = some (out, h')) :
    (∃ r, x h = some (.error r, h') ∧ out = .error r) ∨
      ∃ a h₁, x h = some (.ok a, h₁) ∧ f a h₁ = some (out, h') := by
  cases hx : x h with
  | none =>
    rw [bind_of_none hx] at e
    cases e
  | some p =>
    obtain ⟨outcome, h₁⟩ := p
    cases outcome with
    | error r =>
      rw [bind_of_error hx] at e
      cases e
      exact .inl ⟨r, rfl, rfl⟩
    | ok a =>
      rw [bind_of_ok hx] at e
      exact .inr ⟨a, h₁, rfl, e⟩

@[simp] theorem get_bind_apply (f : Host → Act β) (h : Host) : (get >>= f) h = f h h :=
  bind_of_ok rfl

@[simp] theorem modify_bind_apply (f : Host → Host) (g : Unit → Act β) (h : Host) :
    (modify f >>= g) h = g () (f h) :=
  bind_of_ok rfl

@[simp] theorem pure_bind_apply (a : α) (f : α → Act β) (h : Host) :
    ((pure a : Act α) >>= f) h = f a h :=
  bind_of_ok rfl

@[simp] theorem throw_bind_apply (r : Raised) (f : α → Act β) (h : Host) :
    ((throw r : Act α) >>= f) h = some (.error r, h) :=
  bind_of_error rfl

@[simp] theorem fail_bind_apply (fault : Fault) (f : α → Act β) (h : Host) :
    ((fail fault : Act α) >>= f) h = some (.error ⟨fault, none⟩, h) :=
  bind_of_error rfl

theorem fail_bind (fault : Fault) (f : α → Act β) : (fail fault >>= f) = fail fault := rfl

@[simp] theorem ofExcept_ok (a : α) : ofExcept (.ok a) = (pure a : Act α) := rfl

@[simp] theorem ofExcept_error (fault : Fault) : ofExcept (.error fault) = (fail fault : Act α) :=
  rfl

theorem ofExcept_apply (e : Except Fault α) (h : Host) :
    ofExcept e h = some (e.mapError fun fault => ⟨fault, none⟩, h) := by
  cases e <;> rfl

@[simp] theorem ofOutcome_apply (outcome : Except Raised α) (h : Host) :
    ofOutcome outcome h = some (outcome, h) := by
  cases outcome <;> rfl

theorem attempt_apply (x : Act α) (h : Host) :
    attempt x h = (x h).map fun p => (.ok p.1, p.2) := by
  unfold attempt
  change ((x h).bind _).bind _ = _
  cases x h with
  | none => rfl
  | some p =>
    obtain ⟨outcome, h'⟩ := p
    cases outcome <;> rfl

theorem attempt_of_some {x : Act α} {h h' : Host} {out : Except Raised α}
    (hx : x h = some (out, h')) : attempt x h = some (.ok out, h') := by
  rw [attempt_apply, hx]
  rfl

theorem attempt_eq_some {x : Act α} {h h' : Host} {out : Except Raised (Except Raised α)}
    (e : attempt x h = some (out, h')) : ∃ inner, out = .ok inner ∧ x h = some (inner, h') := by
  rw [attempt_apply] at e
  cases hx : x h with
  | none =>
    rw [hx] at e
    cases e
  | some p =>
    rw [hx] at e
    cases e
    exact ⟨p.1, rfl, rfl⟩

/-- What follows an attempt is told what came of it. -/
theorem attempt_bind_eq_some {x : Act α} {f : Except Raised α → Act β} {h h' : Host}
    {out : Except Raised β} (e : (attempt x >>= f) h = some (out, h')) :
    ∃ inner h₁, x h = some (inner, h₁) ∧ f inner h₁ = some (out, h') := by
  obtain ⟨_, failed, -⟩ | ⟨_, h₁, tried, went⟩ := bind_eq_some e
  · obtain ⟨_, impossible, -⟩ := attempt_eq_some failed
    cases impossible
  · obtain ⟨inner, same, came⟩ := attempt_eq_some tried
    cases same
    exact ⟨_, h₁, came, went⟩

theorem tryCatch_apply (x : Act α) (handle : Raised → Act α) (h : Host) :
    (tryCatch x handle : Act α) h = (x h).bind fun p =>
      match p.1 with
      | .ok a => some (.ok a, p.2)
      | .error r => handle r p.2 := by
  change (x h).bind _ = _
  congr 1
  funext p
  obtain ⟨outcome, h'⟩ := p
  cases outcome <;> rfl

/-- A handler takes over where an attempt failed. -/
theorem tryCatch_eq (x : Act α) (handle : Raised → Act α) :
    (tryCatch x handle : Act α) = attempt x >>= fun outcome =>
      match outcome with
      | .ok a => pure a
      | .error r => handle r := by
  funext h
  rw [tryCatch_apply]
  cases ex : x h with
  | none =>
    rw [bind_of_none (by rw [attempt_apply, ex]; rfl)]
    rfl
  | some p =>
    obtain ⟨outcome, h'⟩ := p
    rw [bind_of_ok (attempt_of_some ex)]
    cases outcome with
    | ok a => rfl
    | error r => rfl

theorem ask_apply (f : Store → Except Fault α) (h : Host) :
    ask f h = some ((f h.store).mapError fun fault => ⟨fault, none⟩, h) := by
  unfold ask
  rw [get_bind_apply, ofExcept_apply]

@[simp] theorem ask_pure_bind_apply (f : Store → Act β) (h : Host) :
    ((ask pure : Act Store) >>= f) h = f h.store h :=
  bind_of_ok rfl

@[simp] theorem record_apply (e : Entry) (h : Host) :
    record e h = some (.ok (), { h with journal := e :: h.journal }) := rfl

@[simp] theorem setStore_apply (store : Store) (write : Option Change) (h : Host) :
    setStore store write h =
      some (.ok (), { h with store := store, journal := .stored store write :: h.journal }) := rfl

/-- What a record adds to the journal of a host. -/
def sayEntries (h : Host) (r : Record) : List Entry :=
  if h.level.admits r.level && r.text.isSome then [.logged r] else []

theorem say_apply (r : Record) (h : Host) :
    say r h = some (.ok (), { h with journal := sayEntries h r ++ h.journal }) := by
  unfold say sayEntries
  rw [get_bind_apply]
  split <;> rfl

end Act

end OptionHost
