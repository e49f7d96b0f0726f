import OptionHost.Proofs.Evaluation

/-!
# Acts that come to an end

An act has no result only where the responses of listeners nest too deep. So as long as every
response comes to an end, a write of an option does, a call of an accessor, and a run of an engine.
Which listeners respond in this way is left open: they are called calm, and a response must leave
them so.
-/

namespace OptionHost

/-- On every host with calm listeners the act has a result, and the listeners are calm after it. -/
def Act.Ends {α : Type} (calm : List (ListenerId × Listener) → Prop) (act : Act α) : Prop :=
  ∀ h, calm h.listeners → ∃ out h', act h = some (out, h') ∧ calm h'.listeners

variable {calm : List (ListenerId × Listener) → Prop}

namespace Act.Ends

variable {α β : Type}

theorem result {x : Act α} (hx : Ends calm x) {h : Host} (listening : calm h.listeners) :
    ∃ out h', x h = some (out, h') := by
  obtain ⟨out, h', e, -⟩ := hx h listening
  exact ⟨out, h', e⟩

protected theorem pure (a : α) : Ends calm (pure a : Act α) :=
  fun h listening => ⟨_, h, rfl, listening⟩

protected theorem throw (r : Raised) : Ends calm (throw r : Act α) :=
  fun h listening => ⟨_, h, rfl, listening⟩

protected theorem fail (fault : Fault) : Ends calm (fail fault : Act α) := Ends.throw _

protected theorem get : Ends calm (get : Act Host) := fun h listening => ⟨_, h, rfl, listening⟩

protected theorem bind {x : Act α} {f : α → Act β} (hx : Ends calm x)
    (hf : ∀ a, Ends calm (f a)) : Ends calm (x >>= f) := by
  intro h listening
  obtain ⟨out, h₁, ex, listening⟩ := hx h listening
  cases out with
  | error r => exact ⟨_, h₁, bind_of_error ex, listening⟩
  | ok a =>
    rw [bind_of_ok ex]
    exact hf a h₁ listening

protected theorem attempt {x : Act α} (hx : Ends calm x) : Ends calm (attempt x) := by
  intro h listening
  obtain ⟨out, h', e, listening⟩ := hx h listening
  exact ⟨.ok out, h', attempt_of_some e, listening⟩

protected theorem ofExcept (e : Except Fault α) : Ends calm (ofExcept e) := by
  cases e with
  | ok a => exact Ends.pure a
  | error fault => exact Ends.fail fault

protected theorem ofOutcome (outcome : Except Raised α) : Ends calm (ofOutcome outcome) := by
  cases outcome with
  | ok a => exact Ends.pure a
  | error r => exact Ends.throw r

protected theorem ask (f : Store → Except Fault α) : Ends calm (ask f) :=
  Ends.bind Ends.get fun _ => Ends.ofExcept _

theorem of_modify {f : Host → Host} (kept : ∀ h : Host, (f h).listeners = h.listeners) :
    Ends calm (modify f : Act Unit) :=
  fun h listening => ⟨_, f h, rfl, (kept h).symm ▸ listening⟩

protected theorem record (e : Entry) : Ends calm (record e) := of_modify fun _ => rfl

protected theorem say (r : Record) : Ends calm (say r) := by
  unfold say
  refine Ends.bind Ends.get fun h => ?_
  split
  · exact Ends.record _
  · exact Ends.pure _

end Act.Ends

theorem Act.Composed.ends {Deed : (α : Type) → Act α → Prop} {α : Type} {x : Act α}
    (deeds : ∀ {β : Type} {y : Act β}, Deed β y → y.Ends calm) (composed : x.Composed Deed) :
    x.Ends calm := by
  induction composed with
  | deed done => exact deeds done
  | pure a => exact Act.Ends.pure a
  | bind _ _ first next => exact Act.Ends.bind first next
  | attempt _ tried => exact Act.Ends.attempt tried

/-- Every response to calm listeners' being told comes to an end and leaves the listeners calm. -/
def Response.Ends (calm : List (ListenerId × Listener) → Prop) (respond : Response) : Prop :=
  ∀ id change, (respond id change).Ends calm

/-! ## The store and its bridges -/

open Act

section Deeds

variable {respond : Response} {α : Type} {x : Act α}

theorem Store.Deed.ends (hr : respond.Ends calm) (done : Store.Deed respond α x) :
    x.Ends calm := by
  cases done with
  | asks f => exact Ends.ask f
  | becomes store write => exact Ends.of_modify fun _ => rfl
  | logs r => exact Ends.say r
  | notifies id change => exact Ends.record _
  | cuts id change => exact Ends.record _
  | hears id change => exact hr id change
  | refuses r => exact Ends.throw r

theorem Act.setOption_ends (hr : respond.Ends calm) (option value : Value) :
    (setOption respond option value).Ends calm :=
  (setOption_composed respond option value).ends (Store.Deed.ends hr)

theorem Bridge.Deed.ends (hr : respond.Ends calm) (done : Bridge.Deed respond α x) :
    x.Ends calm := by
  cases done with
  | asks f => exact Ends.ask f
  | writes option value => exact setOption_ends hr option value
  | logs r => exact Ends.say r
  | refuses r => exact Ends.throw r

namespace Act

theorem access_ends (hr : respond.Ends calm) (bridge : Nat) (a : Accessor) (args : List Value)
    (kwargs : Entries) : (access respond bridge a args kwargs).Ends calm := by
  refine Ends.bind (Ends.bind Ends.get fun _ => Ends.pure _) fun attached => ?_
  exact (Bridge.call_composed respond attached a args kwargs).ends (Bridge.Deed.ends hr)

theorem accessWithin_ends (hr : respond.Ends calm) (id : Nat) (a : Accessor) (args : List Value)
    (kwargs : Entries) : (accessWithin respond id a args kwargs).Ends calm := by
  unfold accessWithin
  refine Ends.bind (Ends.bind Ends.get fun _ => Ends.pure _) fun e => ?_
  split
  · exact Ends.fail _
  · refine Ends.bind (Ends.attempt (access_ends hr e.bridge a args kwargs)) fun outcome => ?_
    exact Ends.bind (Ends.of_modify fun _ => rfl) fun _ => Ends.ofOutcome outcome

end Act

/-! ## Engines -/

namespace Site

variable {site : Site}

theorem Service.ends (hr : site.respond.Ends calm) (done : site.Service α x) : x.Ends calm := by
  cases done with
  | logs r => exact Ends.say r
  | notes _ => exact Ends.record _
  | accesses run a args kwargs => exact accessWithin_ends hr run a args kwargs
  | fails r => exact Ends.throw r

theorem Deed.ends (hr : site.respond.Ends calm) (done : site.Deed α x) : x.Ends calm := by
  cases done with
  | logs r => exact Ends.say r
  | notes _ => exact Ends.record _
  | calls f args kwargs =>
    exact Ends.attempt ((site.invoke_composed f args kwargs).ends (Service.ends hr))

end Site

end Deeds

/-! ## Evaluations -/

namespace Runner

variable {site : Site}

theorem runEngine_ends (i : Interpreter) (hr : site.respond.Ends calm) (globals : Table)
    (job : Job) : (runEngine i site globals job).Ends calm :=
  (runEngine_composed site i globals job).ends (Site.Deed.ends hr)

theorem finish_ends (hr : site.respond.Ends calm) (globals : Table) (outcome : Outcome)
    (rest : Option Behaviour) : (finish site globals outcome rest).Ends calm := by
  refine Ends.bind (Ends.bind Ends.get fun _ => Ends.pure _) fun e => ?_
  refine Ends.bind (Ends.of_modify fun _ => rfl) fun _ => ?_
  cases rest with
  | none => exact Ends.ofOutcome _
  | some rest =>
    have released : (Starlark.release site globals rest).Ends calm :=
      (Starlark.release_composed site globals rest).ends (Site.Deed.ends hr)
    exact Ends.bind released fun _ => Ends.ofOutcome _

theorem evaluate_ends {respond : Response} (hr : respond.Ends calm) (id : Nat) (job : Job) :
    (evaluate respond id job).Ends calm := by
  intro h listening
  cases found : h.runners[id]? with
  | none => exact ⟨_, h, evaluate_of_not_found found, listening⟩
  | some runner =>
    cases decision : refusal? runner job with
    | some fault => exact ⟨_, h, evaluate_of_refused found decision, listening⟩
    | none =>
      rw [evaluate_apply found decision]
      have site : (runner.site respond h).respond.Ends calm := hr
      have ran := runEngine_ends runner.interpreter site (names job h.evaluations.length) job
      exact Ends.bind ran (fun p => finish_ends hr _ p.1 p.2) (runner.entered h) listening

theorem evaluateTimed_ends {respond : Response} (hr : respond.Ends calm) (id : Nat) (job : Job) :
    (evaluateTimed respond id job).Ends calm := by
  intro h listening
  cases found : h.runners[id]? with
  | none =>
    rw [evaluateTimed_of_timed (by rw [found]; rintro _ ⟨⟩)]
    exact evaluate_ends hr id job h listening
  | some runner =>
    cases untimed : untimed? runner job with
    | none =>
      rw [evaluateTimed_of_timed (by rw [found]; rintro _ ⟨⟩; exact untimed)]
      exact evaluate_ends hr id job h listening
    | some r =>
      rw [evaluateTimed_apply found untimed]
      have site : (runner.site respond h).respond.Ends calm := hr
      have notes := (noteLimit_composed runner.interpreter (runner.site respond h)).ends
        (Site.Deed.ends site)
      have went := (unawaited_composed runner.interpreter (runner.site respond h)
        (names job h.evaluations.length) job).ends (Site.Deed.ends site)
      have finishes : (finishEvaluation h.evaluations.length).Ends calm :=
        Ends.of_modify fun _ => rfl
      have ran := Ends.bind notes fun _ =>
        Ends.bind finishes fun _ => Ends.bind went fun _ => Ends.throw (α := Value) r
      exact ran (runner.entered h) listening

end Runner

/-! ## Sessions -/

/-- A reaction without requests. -/
def Reaction.isInert {ρ : Type} : Reaction ρ → Bool
  | .does .. => false
  | _ => true

/-- Listeners that make no requests. -/
def Inert (listeners : List (ListenerId × Listener)) : Prop :=
  ∀ e ∈ listeners, ∀ change, (e.2 change).isInert = true

/-- A listener without requests leaves the host as it is, and fails only if it is to. -/
theorem Session.respond_of_inert (depth : Nat) (id : ListenerId) (change : Change) {h : Host}
    (inert : Inert h.listeners) :
    ∃ out, respond (depth + 1) id change h = some (out, h) ∧
      ∀ r, out = .error r → ∃ e ∈ h.listeners, e.2 change = .raises r := by
  unfold respond
  rw [get_bind_apply]
  cases found : h.listeners.lookup id with
  | none => exact ⟨_, rfl, by rintro r ⟨⟩⟩
  | some listener =>
    obtain ⟨before, after, split, -⟩ := List.lookup_eq_some_iff.mp found
    have member : (id, listener) ∈ h.listeners :=
      split ▸ List.mem_append_right _ List.mem_cons_self
    have quiet : (listener change).isInert = true := inert _ member change
    cases reaction : listener change with
    | returns =>
      refine ⟨.ok (), ?_, by rintro r ⟨⟩⟩
      simp only [reaction, Reaction.carryOut, pure_apply]
    | raises r =>
      refine ⟨.error r, ?_, ?_⟩
      · simp only [reaction, Reaction.carryOut, throw_apply]
      · rintro _ ⟨⟩
        exact ⟨_, member, reaction⟩
    | does request next =>
      rw [reaction] at quiet
      cases quiet

theorem Session.respond_ends_of (inert : ∀ listeners, calm listeners → Inert listeners)
    (depth : Nat) : (respond (depth + 1)).Ends calm := by
  intro id change h listening
  obtain ⟨out, came, -⟩ := respond_of_inert depth id change (inert _ listening)
  exact ⟨out, h, came, listening⟩

theorem Session.respond_ends (depth : Nat) : (respond (depth + 1)).Ends Inert :=
  respond_ends_of (fun _ inert => inert) depth

end OptionHost
