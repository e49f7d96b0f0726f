import OptionHost.Proofs.Requests

/-!
# Evaluations under way

An evaluation is ended by nothing but its own runner. Whatever a host does in the meantime, also
by way of listeners that have other scripts evaluated, the evaluation stays under way and keeps
its bridge.
-/

namespace OptionHost

open Act
open Host (Conduct Telling)

@[simp] theorem Evaluation.after_bridge (e : Evaluation) (outcome : Outcome) :
    (e.after outcome).bridge = e.bridge := by
  unfold after
  cases outcome with
  | ok v => rfl
  | error r =>
    dsimp only
    split <;> rfl

@[simp] theorem Evaluation.after_finished (e : Evaluation) (outcome : Outcome) :
    (e.after outcome).finished = e.finished := by
  unfold after
  cases outcome with
  | ok v => rfl
  | error r =>
    dsimp only
    split <;> rfl

/-- Every evaluation of the first host is still there, and has not been ended since. -/
def Host.Spares (h h' : Host) : Prop :=
  ∀ (id : Nat) (e : Evaluation), h.evaluations[id]? = some e →
    ∃ e' : Evaluation,
      h'.evaluations[id]? = some e' ∧ e'.bridge = e.bridge ∧ e'.finished = e.finished

namespace Host.Spares

variable {h h' h₁ h₂ : Host}

theorem of_same (evaluations : h'.evaluations = h.evaluations) : h.Spares h' := by
  intro id e found
  exact ⟨e, evaluations ▸ found, rfl, rfl⟩

theorem trans (first : h.Spares h₁) (second : h₁.Spares h₂) : h.Spares h₂ := by
  intro id e found
  obtain ⟨e₁, found₁, bridge₁, finished₁⟩ := first id e found
  obtain ⟨e₂, found₂, bridge₂, finished₂⟩ := second id e₁ found₁
  exact ⟨e₂, found₂, bridge₂.trans bridge₁, finished₂.trans finished₁⟩

theorem telling {change : Change} {ids : List ListenerId}
    (telling : Telling Host.Spares change ids h h') : h.Spares h' := by
  induction telling with
  | done h => exact of_same rfl
  | noted _ _ ih => exact ih
  | told heard _ ih => exact heard.trans ih
  | cut heard => exact heard

theorem accessed (called : h.Spares h₁) (run : Nat) (outcome : Outcome) (journal : List Entry) :
    h.Spares { h₁ with
      evaluations := h₁.evaluations.modify run (·.after outcome), journal := journal } := by
  intro id e found
  obtain ⟨e₁, found₁, bridge, finished⟩ := called id e found
  by_cases own : run = id
  · refine ⟨e₁.after outcome, ?_, ?_, ?_⟩
    · simp [own, found₁]
    · exact (e₁.after_bridge outcome).trans bridge
    · exact (e₁.after_finished outcome).trans finished
  · refine ⟨e₁, ?_, bridge, finished⟩
    simp [own, found₁]

theorem entered (runner : Runner) (h : Host) : h.Spares (runner.entered h) := by
  intro id e found
  have opened := (List.getElem?_eq_some_iff.mp found).1
  exact ⟨e, (List.getElem?_append_left opened).trans found, rfl, rfl⟩

/-- The end of an evaluation concerns none that was opened before. -/
theorem expired (ran : h.Spares h₁) : h.Spares (Runner.expired h.evaluations.length h₁) := by
  intro id e found
  have opened := (List.getElem?_eq_some_iff.mp found).1
  have other : h.evaluations.length ≠ id := by omega
  obtain ⟨e₁, found₁, bridge, finished⟩ := ran id e found
  refine ⟨e₁, ?_, bridge, finished⟩
  simp [Runner.expired, other, found₁]

instance : Conduct Host.Spares where
  refl _ := of_same rfl
  trans := trans
  noted _ _ _ := of_same rfl
  stored _ := of_same rfl
  wrote _ told := by
    have spared := Spares.telling told
    exact trans (of_same rfl) spared
  levelSet _ _ := of_same rfl
  bridgeOpened _ := of_same rfl
  bridgeDetached _ _ := of_same rfl
  runnerOpened _ _ _ := of_same rfl
  runnerClosed _ := of_same rfl
  listenerAdded _ _ _ := of_same rfl
  accessed _ _ called _ outcome _ := called.accessed _ outcome _
  evaluated _ ran rest := ((entered _ _).trans ran).expired.trans rest

end Host.Spares

/-- The evaluation is under way, on a bridge. -/
def Host.Runs (h : Host) (run bridge : Nat) : Prop :=
  ∃ e, h.evaluations[run]? = some e ∧ e.bridge = bridge ∧ e.finished = false

theorem Host.Runs.spared {h h' : Host} {run bridge : Nat} (runs : h.Runs run bridge)
    (spared : h.Spares h') : h'.Runs run bridge := by
  obtain ⟨e, found, onBridge, underWay⟩ := runs
  obtain ⟨e', found', bridge', finished'⟩ := spared run e found
  exact ⟨e', found', bridge'.trans onBridge, finished'.trans underWay⟩

theorem Host.Runs.entered (runner : Runner) (h : Host) :
    (runner.entered h).Runs h.evaluations.length runner.bridge :=
  ⟨⟨runner.bridge, false, []⟩, List.getElem?_concat_length, rfl, rfl⟩

namespace Act

/-- While an evaluation is under way, a call of one of its accessors goes to its bridge and is
booked. -/
theorem accessWithin_of_runs {h : Host} {run bridge : Nat} (runs : h.Runs run bridge)
    (respond : Response) (a : Accessor) (args : List Value) (kwargs : Entries) :
    accessWithin respond run a args kwargs h =
      (attempt (access respond bridge a args kwargs) >>= fun outcome =>
        noteAccess run a outcome >>= fun _ => ofOutcome outcome) h := by
  obtain ⟨e, found, rfl, underWay⟩ := runs
  unfold accessWithin
  rw [bind_of_ok (show evaluation run h = some (.ok _, h) from rfl), found, Option.getD_some,
    underWay]
  rfl

/-- What a call of an accessor came to, and the host on which it was booked. -/
theorem accessWithin_cases {h h' : Host} {run bridge : Nat} (runs : h.Runs run bridge)
    {respond : Response} {a : Accessor} {args : List Value} {kwargs : Entries} {out : Outcome}
    (e : accessWithin respond run a args kwargs h = some (out, h')) :
    ∃ h₁, access respond bridge a args kwargs h = some (out, h₁) ∧
      h' = { h₁ with
        evaluations := h₁.evaluations.modify run (·.after out)
        journal := .accessed run a out :: h₁.journal } := by
  rw [accessWithin_of_runs runs] at e
  obtain ⟨outcome, h₁, called, booked⟩ := attempt_bind_eq_some e
  rw [bind_of_ok (show noteAccess run a outcome h₁ = some (.ok (), _) from rfl),
    ofOutcome_apply] at booked
  cases booked
  exact ⟨h₁, called, rfl⟩

/-- A call of an accessor is abandoned, or its evaluation is under way and it goes to the bridge. -/
theorem runs_of_accessWithin {respond : Response} {h h' : Host} {run : Nat} {a : Accessor}
    {args : List Value} {kwargs : Entries} {out : Outcome}
    (e : accessWithin respond run a args kwargs h = some (out, h')) :
    (((h.evaluations[run]?).getD ⟨0, true, []⟩).finished = true ∧
        out = .error ⟨.hostState (.abandoned a.name), none⟩ ∧ h' = h) ∨
      ∃ bridge, h.Runs run bridge := by
  unfold accessWithin at e
  rw [bind_of_ok (show evaluation run h = some (.ok _, h) from rfl)] at e
  split at e
  · rename_i ended
    cases e
    exact .inl ⟨ended, rfl, rfl⟩
  · rename_i live
    cases found : h.evaluations[run]? with
    | none =>
      rw [found] at live
      exact absurd rfl live
    | some open_ =>
      rw [found, Option.getD_some] at live
      exact .inr ⟨open_.bridge, open_, found, rfl, Bool.not_eq_true _ ▸ live⟩

end Act

end OptionHost
