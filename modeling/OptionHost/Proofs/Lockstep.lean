import OptionHost.Proofs.UnderWay

/-!
# Hosts in step

Nothing that a host does depends on what its journal says, and the failures that are noted for an
evaluation matter to nothing but the report of that evaluation. So two hosts that differ in no more
than their journals and the failures of some evaluations answer every request alike and differ in no
more afterwards, also where listeners respond with requests of their own. This covers no report of
an evaluation whose failures differ; a request can only report on an evaluation that it opens.
-/

namespace OptionHost

/-- A relation between journals that is kept when both of them take in an entry. -/
class Cumulative (Q : List Entry → List Entry → Prop) : Prop where
  cons (e : Entry) {j k : List Entry} (kept : Q j k) : Q (e :: j) (e :: k)

/-- The evaluations of two hosts, of which some, opened long since, may have other failures. -/
structure Evaluation.Alike (apart : Nat → Prop) (es fs : List Evaluation) : Prop where
  length : es.length = fs.length
  opened : ∀ id, apart id → id < es.length
  bridge : ∀ id : Nat, (es[id]?).map Evaluation.bridge = (fs[id]?).map Evaluation.bridge
  finished : ∀ id : Nat, (es[id]?).map Evaluation.finished = (fs[id]?).map Evaluation.finished
  same : ∀ id : Nat, ¬apart id → es[id]? = fs[id]?

namespace Evaluation.Alike

variable {apart : Nat → Prop} {es fs : List Evaluation}

theorem append (alike : Alike apart es fs) (e : Evaluation) :
    Alike apart (es ++ [e]) (fs ++ [e]) := by
  have at? (gs : List Evaluation) (id : Nat) :
      (gs ++ [e])[id]? = if id < gs.length then gs[id]? else [e][id - gs.length]? := by
    rw [List.getElem?_append]
  refine ⟨by simp [alike.length], ?_, ?_, ?_, ?_⟩
  · intro id isApart
    have opened := alike.opened id isApart
    simp only [List.length_append]
    omega
  · intro id
    rw [at?, at?, alike.length]
    split
    · exact alike.bridge id
    · rfl
  · intro id
    rw [at?, at?, alike.length]
    split
    · exact alike.finished id
    · rfl
  · intro id notApart
    rw [at?, at?, alike.length]
    split
    · exact alike.same id notApart
    · rfl

/-- What is done to an evaluation must not carry its failures over to anything else. -/
theorem modify (alike : Alike apart es fs) (id : Nat) {f : Evaluation → Evaluation}
    (bridge : ∀ e, (f e).bridge = e.bridge)
    (finished : ∀ e e', e.finished = e'.finished → (f e).finished = (f e').finished) :
    Alike apart (es.modify id f) (fs.modify id f) := by
  refine ⟨by simp [alike.length], ?_, ?_, ?_, ?_⟩
  · intro i isApart
    rw [List.length_modify]
    exact alike.opened i isApart
  · intro i
    have there := alike.bridge i
    rw [List.getElem?_modify, List.getElem?_modify]
    split
    · simpa [Function.comp_def, bridge] using there
    · simpa using there
  · intro i
    have there := alike.finished i
    rw [List.getElem?_modify, List.getElem?_modify]
    split
    · cases left : es[i]? with
      | none =>
        rw [left] at there
        cases right : fs[i]? with
        | none => rfl
        | some e' => simp [right] at there
      | some e =>
        rw [left] at there
        cases right : fs[i]? with
        | none => simp [right] at there
        | some e' =>
          rw [right] at there
          exact congrArg some (finished e e' (Option.some.inj there))
    · simpa using there
  · intro i notApart
    rw [List.getElem?_modify, List.getElem?_modify, alike.same i notApart]

theorem getD (alike : Alike apart es fs) (id : Nat) :
    ((es[id]?).getD ⟨0, true, []⟩).bridge = ((fs[id]?).getD ⟨0, true, []⟩).bridge ∧
      ((es[id]?).getD ⟨0, true, []⟩).finished = ((fs[id]?).getD ⟨0, true, []⟩).finished := by
  have bridge := alike.bridge id
  have finished := alike.finished id
  cases left : es[id]? with
  | none =>
    cases right : fs[id]? with
    | none => exact ⟨rfl, rfl⟩
    | some e' => simp [left, right] at bridge
  | some e =>
    cases right : fs[id]? with
    | none => simp [left, right] at bridge
    | some e' =>
      rw [left, right] at bridge finished
      exact ⟨Option.some.inj bridge, Option.some.inj finished⟩

end Evaluation.Alike

/-- Two hosts that differ at most in their journals and in the failures of some evaluations. -/
inductive Host.InStep (Q : List Entry → List Entry → Prop) (apart : Nat → Prop) (h : Host) :
    Host → Prop where
  | beside {es : List Evaluation} {j : List Entry}
      (evaluations : Evaluation.Alike apart h.evaluations es) (journal : Q h.journal j) :
      InStep Q apart h { h with evaluations := es, journal := j }

/-- Hosts in step stay in step when the act is carried out on both, and it comes to the same. -/
def Act.Lockstep {α : Type} (Q : List Entry → List Entry → Prop) (apart : Nat → Prop)
    (act : Act α) : Prop :=
  ∀ ⦃h g out h'⦄, h.InStep Q apart g → act h = some (out, h') →
    ∃ g', act g = some (out, g') ∧ h'.InStep Q apart g'

variable {Q : List Entry → List Entry → Prop} {apart : Nat → Prop}

namespace Act.Lockstep

variable {α β : Type}

protected theorem pure (a : α) : Lockstep Q apart (pure a : Act α) := by
  rintro h g out h' inStep ⟨⟩
  exact ⟨g, rfl, inStep⟩

protected theorem throw (r : Raised) : Lockstep Q apart (throw r : Act α) := by
  rintro h g out h' inStep ⟨⟩
  exact ⟨g, rfl, inStep⟩

protected theorem fail (fault : Fault) : Lockstep Q apart (fail fault : Act α) :=
  Lockstep.throw _

protected theorem bind {x : Act α} {f : α → Act β} (hx : Lockstep Q apart x)
    (hf : ∀ a, Lockstep Q apart (f a)) : Lockstep Q apart (x >>= f) := by
  intro h g out h' inStep e
  obtain ⟨r, ex, rfl⟩ | ⟨a, h₁, ex, ef⟩ := bind_eq_some e
  · obtain ⟨g', eg, after⟩ := hx inStep ex
    exact ⟨g', bind_of_error eg, after⟩
  · obtain ⟨g₁, eg, between⟩ := hx inStep ex
    rw [bind_of_ok eg]
    exact hf a between ef

protected theorem map {x : Act α} (f : α → β) (hx : Lockstep Q apart x) :
    Lockstep Q apart (f <$> x) := by
  rw [map_eq_pure_bind]
  exact Lockstep.bind hx fun _ => Lockstep.pure _

protected theorem attempt {x : Act α} (hx : Lockstep Q apart x) :
    Lockstep Q apart (attempt x) := by
  intro h g out h' inStep e
  obtain ⟨inner, rfl, ex⟩ := attempt_eq_some e
  obtain ⟨g', eg, after⟩ := hx inStep ex
  exact ⟨g', attempt_of_some eg, after⟩

protected theorem ofExcept (e : Except Fault α) : Lockstep Q apart (ofExcept e) := by
  cases e with
  | ok a => exact Lockstep.pure a
  | error fault => exact Lockstep.fail fault

protected theorem ofOutcome (outcome : Except Raised α) :
    Lockstep Q apart (ofOutcome outcome) := by
  cases outcome with
  | ok a => exact Lockstep.pure a
  | error r => exact Lockstep.throw r

/-- An act that decides by what hosts in step have in common. -/
theorem of_get {f : Host → Act β} (alike : ∀ {h g : Host}, h.InStep Q apart g → f g = f h)
    (hf : ∀ h, Lockstep Q apart (f h)) : Lockstep Q apart (get >>= f) := by
  intro h g out h' inStep e
  rw [get_bind_apply] at e ⊢
  rw [alike inStep]
  exact hf h inStep e

/-- An act that changes both hosts at one go. -/
theorem of_modify {f : Host → Host}
    (hf : ∀ {h g : Host}, h.InStep Q apart g → (f h).InStep Q apart (f g)) :
    Lockstep Q apart (modify f : Act Unit) := by
  rintro h g out h' inStep ⟨⟩
  exact ⟨f g, rfl, hf inStep⟩

protected theorem ask (f : Store → Except Fault α) : Lockstep Q apart (ask f) := by
  refine of_get ?_ fun _ => Lockstep.ofExcept _
  rintro h _ ⟨-, -⟩
  rfl

protected theorem mapM {f : α → Act β} (hf : ∀ a, Lockstep Q apart (f a)) (as : List α) :
    Lockstep Q apart (as.mapM f) := by
  induction as with
  | nil => exact Lockstep.pure _
  | cons a as ih =>
    rw [List.mapM_cons]
    exact Lockstep.bind (hf a) fun _ => Lockstep.bind ih fun _ => Lockstep.pure _

variable [Cumulative Q]

protected theorem record (e : Entry) : Lockstep Q apart (record e) := by
  refine of_modify ?_
  rintro h _ ⟨evaluations, journal⟩
  exact .beside evaluations (Cumulative.cons e journal)

protected theorem say (r : Record) : Lockstep Q apart (say r) := by
  refine of_get ?_ fun h => ?_
  · rintro h _ ⟨-, -⟩
    rfl
  · split
    · exact Lockstep.record _
    · exact Lockstep.pure _

protected theorem setStore (store : Store) (write : Option Change) :
    Lockstep Q apart (setStore store write) := by
  refine of_modify ?_
  rintro h _ ⟨evaluations, journal⟩
  exact .beside evaluations (Cumulative.cons _ journal)

end Act.Lockstep

open Act

theorem Act.Composed.lockstep {Deed : (α : Type) → Act α → Prop} {α : Type} {x : Act α}
    (deeds : ∀ {β : Type} {y : Act β}, Deed β y → y.Lockstep Q apart)
    (composed : x.Composed Deed) : x.Lockstep Q apart := by
  induction composed with
  | deed done => exact deeds done
  | pure a => exact Lockstep.pure a
  | bind _ _ first next => exact Lockstep.bind first next
  | attempt _ tried => exact Lockstep.attempt tried

/-- Every response of a listener keeps hosts in step. -/
def Response.Lockstep (Q : List Entry → List Entry → Prop) (apart : Nat → Prop)
    (respond : Response) : Prop :=
  ∀ id change, (respond id change).Lockstep Q apart

variable [Cumulative Q] {respond : Response}

/-! ## The store and its bridges -/

theorem Store.Deed.lockstep (hr : respond.Lockstep Q apart) {α : Type} {x : Act α}
    (done : Store.Deed respond α x) : x.Lockstep Q apart := by
  cases done with
  | asks f => exact Lockstep.ask f
  | becomes store write => exact Lockstep.setStore store write
  | logs r => exact Lockstep.say r
  | notifies id change => exact Lockstep.record _
  | cuts id change => exact Lockstep.record _
  | hears id change => exact hr id change
  | refuses r => exact Lockstep.throw r

theorem Bridge.Deed.lockstep (hr : respond.Lockstep Q apart) {α : Type} {x : Act α}
    (done : Bridge.Deed respond α x) : x.Lockstep Q apart := by
  cases done with
  | asks f => exact Lockstep.ask f
  | writes option value =>
    exact (setOption_composed respond option value).lockstep (Store.Deed.lockstep hr)
  | logs r => exact Lockstep.say r
  | refuses r => exact Lockstep.throw r

namespace Act

omit [Cumulative Q] in
theorem openBridge_lockstep : openBridge.Lockstep Q apart := by
  rintro h _ out h' ⟨evaluations, journal⟩ ⟨⟩
  exact ⟨_, rfl, .beside evaluations journal⟩

omit [Cumulative Q] in
theorem isAttached_lockstep (bridge : Nat) : (isAttached bridge).Lockstep Q apart := by
  refine Lockstep.of_get ?_ fun _ => Lockstep.pure _
  rintro h _ ⟨-, -⟩
  rfl

theorem detach_lockstep (bridge : Nat) : (detach bridge).Lockstep Q apart := by
  refine Lockstep.bind (Lockstep.of_modify ?_) fun _ => Lockstep.say _
  rintro h _ ⟨evaluations, journal⟩
  exact .beside evaluations journal

theorem access_lockstep (hr : respond.Lockstep Q apart) (bridge : Nat) (a : Accessor)
    (args : List Value) (kwargs : Entries) :
    (access respond bridge a args kwargs).Lockstep Q apart :=
  Lockstep.bind (isAttached_lockstep bridge) fun attached =>
    (Bridge.call_composed respond attached a args kwargs).lockstep (Bridge.Deed.lockstep hr)

/-! ## Evaluations -/

omit [Cumulative Q] in
theorem finishEvaluation_lockstep (id : Nat) : (finishEvaluation id).Lockstep Q apart := by
  refine Lockstep.of_modify ?_
  rintro h _ ⟨evaluations, journal⟩
  exact .beside (evaluations.modify id (fun _ => rfl) fun _ _ _ => rfl) journal

theorem noteAccess_lockstep (id : Nat) (a : Accessor) (outcome : Outcome) :
    (noteAccess id a outcome).Lockstep Q apart := by
  refine Lockstep.of_modify ?_
  rintro h _ ⟨evaluations, journal⟩
  refine .beside (evaluations.modify id (fun e => e.after_bridge outcome) ?_)
    (Cumulative.cons _ journal)
  intro e e' finished
  rw [e.after_finished, e'.after_finished, finished]

/-- A call of an accessor asks of its evaluation only for the bridge and whether it is over. -/
theorem accessWithin_lockstep (hr : respond.Lockstep Q apart) (id : Nat) (a : Accessor)
    (args : List Value) (kwargs : Entries) :
    (accessWithin respond id a args kwargs).Lockstep Q apart := by
  have booked (bridge : Nat) : Lockstep Q apart (do
      let outcome ← attempt (access respond bridge a args kwargs)
      noteAccess id a outcome
      ofOutcome outcome) := by
    refine Lockstep.bind (Lockstep.attempt (access_lockstep hr bridge a args kwargs)) fun outcome => ?_
    exact Lockstep.bind (noteAccess_lockstep id a outcome) fun _ => Lockstep.ofOutcome outcome
  have asked : accessWithin respond id a args kwargs = (get >>= fun h =>
      if ((h.evaluations[id]?).getD ⟨0, true, []⟩).finished then
        fail (.hostState (.abandoned a.name))
      else do
        let outcome ←
          attempt (access respond ((h.evaluations[id]?).getD ⟨0, true, []⟩).bridge a args kwargs)
        noteAccess id a outcome
        ofOutcome outcome) := by
    funext h
    rfl
  rw [asked]
  refine Lockstep.of_get ?_ fun h => ?_
  · rintro h _ ⟨evaluations, -⟩
    obtain ⟨bridge, finished⟩ := evaluations.getD id
    dsimp only
    rw [← bridge, ← finished]
  · split
    · exact Lockstep.fail _
    · exact booked _

end Act

/-! ## Engines -/

namespace Site

variable {site : Site} {α : Type} {x : Act α}

theorem Service.lockstep (hr : site.respond.Lockstep Q apart) (done : site.Service α x) :
    x.Lockstep Q apart := by
  cases done with
  | logs r => exact Lockstep.say r
  | notes _ => exact Lockstep.record _
  | accesses run a args kwargs => exact accessWithin_lockstep hr run a args kwargs
  | fails r => exact Lockstep.throw r

theorem Deed.lockstep (hr : site.respond.Lockstep Q apart) (done : site.Deed α x) :
    x.Lockstep Q apart := by
  cases done with
  | logs r => exact Lockstep.say r
  | notes _ => exact Lockstep.record _
  | calls f args kwargs =>
    exact Lockstep.attempt ((site.invoke_composed f args kwargs).lockstep (Service.lockstep hr))

end Site

/-! ## Runners -/

namespace Runner

theorem openEngine_lockstep (config : RunnerConfig) :
    (openEngine config).Lockstep Q apart := by
  unfold openEngine
  cases config.interpreter? with
  | none => exact Lockstep.fail _
  | some i =>
    dsimp only
    split
    · exact Lockstep.bind (Lockstep.say _) fun _ => Lockstep.pure _
    · exact Lockstep.pure _

theorem openNew_lockstep (settings : List (String × Value)) (standIn : Bool) :
    (openNew settings standIn).Lockstep Q apart := by
  have opened (config : RunnerConfig) (i : Interpreter) : Lockstep Q apart (do
      let bridge ← openBridge
      let id := (← get).runners.length
      modify fun h =>
        { h with runners := h.runners ++ [⟨config, i, bridge, false⟩], runner := some id }
      say (openRecord config)
      return id) := by
    refine Lockstep.bind openBridge_lockstep fun bridge => ?_
    refine Lockstep.of_get ?_ fun h => ?_
    · rintro h _ ⟨-, -⟩
      rfl
    · refine Lockstep.bind (Lockstep.of_modify ?_) fun _ => ?_
      · rintro h _ ⟨evaluations, journal⟩
        exact .beside evaluations journal
      · exact Lockstep.bind (Lockstep.say _) fun _ => Lockstep.pure _
  unfold openNew
  refine Lockstep.bind (Lockstep.ofExcept _) fun config => ?_
  dsimp only
  split
  · exact Lockstep.bind (Lockstep.pure _) fun i => opened config i
  · exact Lockstep.bind (openEngine_lockstep config) fun i => opened config i

omit [Cumulative Q] in
theorem at?_lockstep (id : Nat) : (at? id).Lockstep Q apart := by
  refine Lockstep.of_get ?_ fun _ => Lockstep.pure _
  rintro h _ ⟨-, -⟩
  rfl

theorem close_lockstep (id : Nat) : (close id).Lockstep Q apart := by
  unfold close
  refine Lockstep.bind (at?_lockstep id) fun found => ?_
  cases found with
  | none => exact Lockstep.pure _
  | some runner =>
    dsimp only
    split
    · refine Lockstep.bind (detach_lockstep runner.bridge) fun _ => ?_
      refine Lockstep.bind (Lockstep.of_modify ?_) fun _ => Lockstep.say _
      rintro h _ ⟨evaluations, journal⟩
      exact .beside evaluations journal
    · exact Lockstep.pure _

theorem runEngine_lockstep (i : Interpreter) (site : Site) (hr : site.respond.Lockstep Q apart)
    (globals : Table) (job : Job) : (runEngine i site globals job).Lockstep Q apart :=
  (runEngine_composed site i globals job).lockstep (Site.Deed.lockstep hr)

/-- The report of an evaluation is the same where its failures are. -/
theorem finish_lockstep (site : Site) (hr : site.respond.Lockstep Q apart)
    (own : ¬apart site.run) (globals : Table) (outcome : Outcome) (rest : Option Behaviour) :
    (finish site globals outcome rest).Lockstep Q apart := by
  have after (reported : Outcome) : Lockstep Q apart (do
      finishEvaluation site.run
      afterwards site globals rest
      ofOutcome reported) := by
    refine Lockstep.bind (finishEvaluation_lockstep _) fun _ => ?_
    refine Lockstep.bind ?_ fun _ => Lockstep.ofOutcome _
    exact (afterwards_composed site globals rest).lockstep (Site.Deed.lockstep hr)
  have asked : finish site globals outcome rest = (get >>= fun h => do
      finishEvaluation site.run
      afterwards site globals rest
      ofOutcome (report ((h.evaluations[site.run]?).getD ⟨0, true, []⟩) outcome)) := by
    cases rest with
    | none =>
      funext h
      rfl
    | some rest =>
      funext h
      rfl
  rw [asked]
  refine Lockstep.of_get ?_ fun h => after _
  rintro h _ ⟨evaluations, -⟩
  dsimp only
  rw [evaluations.same _ own]

omit [Cumulative Q] in
theorem entered_inStep (runner : Runner) {h g : Host} (inStep : h.InStep Q apart g) :
    (runner.entered h).InStep Q apart (runner.entered g) := by
  obtain ⟨evaluations, journal⟩ := inStep
  rename_i es j
  have opened : (runner.entered h).InStep Q apart { runner.entered h with
      evaluations := es ++ [⟨runner.bridge, false, []⟩], journal := j } :=
    .beside (evaluations.append _) journal
  unfold entered at opened ⊢
  rw [← evaluations.length]
  exact opened

/-- An evaluation is opened under a number that no earlier one has, so its own failures are those
of its own calls on both hosts. -/
theorem evaluate_lockstep (hr : respond.Lockstep Q apart) (id : Nat) (job : Job) :
    (evaluate respond id job).Lockstep Q apart := by
  rintro h _ out h' ⟨evaluations, journal⟩ e
  rename_i es j
  cases found : h.runners[id]? with
  | none =>
    rw [evaluate_of_not_found found] at e
    cases e
    exact ⟨_, evaluate_of_not_found found, .beside evaluations journal⟩
  | some runner =>
    cases decision : refusal? runner job with
    | some fault =>
      rw [evaluate_of_refused found decision] at e
      cases e
      exact ⟨_, evaluate_of_refused found decision, .beside evaluations journal⟩
    | none =>
      have own : ¬apart h.evaluations.length :=
        fun isApart => Nat.lt_irrefl _ (evaluations.opened _ isApart)
      rw [evaluate_apply found decision] at e
      have entered : (runner.entered h).InStep Q apart
          (runner.entered { h with evaluations := es, journal := j }) :=
        entered_inStep runner (.beside evaluations journal)
      have ran := Lockstep.bind
        (runEngine_lockstep runner.interpreter (runner.site respond h) hr
          (names job h.evaluations.length) job)
        fun p => finish_lockstep (runner.site respond h) hr own (names job h.evaluations.length)
          p.1 p.2
      obtain ⟨g', went, after⟩ := ran entered e
      refine ⟨g', ?_, after⟩
      have applied : evaluate respond id job { h with evaluations := es, journal := j } = _ :=
        evaluate_apply found decision
      rw [applied, ← went, site, site, evaluations.length]

theorem evaluateTimed_lockstep (hr : respond.Lockstep Q apart) (id : Nat) (job : Job) :
    (evaluateTimed respond id job).Lockstep Q apart := by
  rintro h _ out h' ⟨evaluations, journal⟩ e
  rename_i es j
  have asTimed (timed : ∀ runner, h.runners[id]? = some runner → untimed? runner job = none) :
      ∃ g', evaluateTimed respond id job { h with evaluations := es, journal := j } =
        some (out, g') ∧ h'.InStep Q apart g' := by
    rw [evaluateTimed_of_timed timed] at e
    obtain ⟨g', went, after⟩ := evaluate_lockstep hr id job (.beside evaluations journal) e
    refine ⟨g', ?_, after⟩
    rw [← went]
    exact evaluateTimed_of_timed timed
  cases found : h.runners[id]? with
  | none => exact asTimed (by rw [found]; rintro _ ⟨⟩)
  | some runner =>
    cases untimed : untimed? runner job with
    | none => exact asTimed (by rw [found]; rintro _ ⟨⟩; exact untimed)
    | some r =>
      rw [evaluateTimed_apply found untimed] at e
      have entered : (runner.entered h).InStep Q apart
          (runner.entered { h with evaluations := es, journal := j }) :=
        entered_inStep runner (.beside evaluations journal)
      have noted := (noteLimit_composed runner.interpreter (runner.site respond h)).lockstep
        (Site.Deed.lockstep hr)
      have went := (unawaited_composed runner.interpreter (runner.site respond h)
        (names job h.evaluations.length) job).lockstep (Site.Deed.lockstep hr)
      have ran := Lockstep.bind noted fun _ =>
        Lockstep.bind (finishEvaluation_lockstep h.evaluations.length) fun _ =>
          Lockstep.bind went fun _ => Lockstep.throw (α := Value) r
      obtain ⟨g', went, after⟩ := ran entered e
      refine ⟨g', ?_, after⟩
      have applied : evaluateTimed respond id job { h with evaluations := es, journal := j } = _ :=
        evaluateTimed_apply found untimed
      rw [applied, ← went, site, site, evaluations.length]

end Runner

/-! ## Requests and responses -/

omit [Cumulative Q] in
theorem Reaction.carryOut_lockstep {ρ : Type} {perform : ρ → Act Reply}
    (hp : ∀ request, (perform request).Lockstep Q apart) (reaction : Reaction ρ) :
    (reaction.carryOut perform).Lockstep Q apart := by
  induction reaction with
  | returns => exact Lockstep.pure _
  | raises r => exact Lockstep.throw r
  | does request next ih =>
    refine Lockstep.bind (Lockstep.attempt ?_) ih
    exact Lockstep.bind (hp request) fun _ => Lockstep.pure _

namespace Session

theorem setLevel_lockstep (level : Level) : (setLevel level).Lockstep Q apart := by
  refine Lockstep.bind (Lockstep.of_modify ?_) fun _ => Lockstep.say _
  rintro h _ ⟨evaluations, journal⟩
  exact .beside evaluations journal

theorem register_lockstep (id : ListenerId) (listener : Listener) :
    (register id listener).Lockstep Q apart := by
  have registered : Lockstep Q apart (do setStore ((← get).store.register id) none) := by
    refine Lockstep.of_get ?_ fun _ => Lockstep.setStore _ _
    rintro h _ ⟨-, -⟩
    rfl
  refine Lockstep.of_get ?_ fun h => ?_
  · rintro h _ ⟨-, -⟩
    rfl
  · dsimp only
    split
    · refine Lockstep.bind (Lockstep.of_modify ?_) fun _ => registered
      rintro h _ ⟨evaluations, journal⟩
      exact .beside evaluations journal
    · exact registered

omit [Cumulative Q] in
theorem currentBridge_lockstep : currentBridge.Lockstep Q apart := by
  refine Lockstep.of_get ?_ fun _ => Lockstep.pure _
  rintro h _ ⟨-, -⟩
  rfl

omit [Cumulative Q] in
theorem currentRunner_lockstep : currentRunner.Lockstep Q apart := by
  refine Lockstep.of_get ?_ fun _ => Lockstep.pure _
  rintro h _ ⟨-, -⟩
  rfl

theorem access_lockstep (hr : respond.Lockstep Q apart) (name : String) (args : List Value)
    (kwargs : Entries) : (access respond name args kwargs).Lockstep Q apart := by
  unfold access
  cases Accessor.ofName? name with
  | none => exact Lockstep.fail _
  | some a =>
    exact Lockstep.bind currentBridge_lockstep fun bridge =>
      Act.access_lockstep hr bridge a args kwargs

theorem late_lockstep (hr : respond.Lockstep Q apart) (name : String) (args : List Value) :
    (late respond name args).Lockstep Q apart := by
  refine Lockstep.of_get ?_ fun h => ?_
  · rintro h _ ⟨-, -⟩
    rfl
  · split
    · exact accessWithin_lockstep hr _ _ args []
    · exact Lockstep.fail _

theorem evaluateWithin_lockstep (hr : respond.Lockstep Q apart)
    (settings : List (String × Value)) (standIn : Bool) (jobs : List Job) :
    (evaluateWithin respond settings standIn jobs).Lockstep Q apart := by
  refine Lockstep.bind (Runner.openNew_lockstep settings standIn) fun id => ?_
  refine Lockstep.bind (Lockstep.mapM (fun job => ?_) jobs) fun results => ?_
  · exact Lockstep.attempt (Runner.evaluateTimed_lockstep hr id job)
  · refine Lockstep.bind (Runner.close_lockstep id) fun _ => ?_
    exact Lockstep.bind (Runner.at?_lockstep id) fun _ => Lockstep.pure _

omit [Cumulative Q] in
theorem unit_lockstep {act : Act Unit} (ha : act.Lockstep Q apart) :
    (unit act).Lockstep Q apart :=
  Lockstep.bind ha fun _ => Lockstep.pure _

omit [Cumulative Q] in
theorem replied_lockstep {α : Type} {act : Act α} {f : α → Reply}
    (ha : act.Lockstep Q apart) : Lockstep Q apart (do return f (← act)) :=
  Lockstep.bind ha fun _ => Lockstep.pure _

theorem perform_lockstep (hr : respond.Lockstep Q apart) (request : Request) :
    (perform respond request).Lockstep Q apart := by
  cases request with
  | start =>
    exact unit_lockstep ((startStore_composed respond).lockstep (Store.Deed.lockstep hr))
  | close =>
    exact unit_lockstep ((closeStore_composed respond).lockstep (Store.Deed.lockstep hr))
  | stage =>
    refine Lockstep.of_get ?_ fun _ => Lockstep.pure _
    rintro h _ ⟨-, -⟩
    rfl
  | optionNames => exact Lockstep.pure _
  | get option => exact replied_lockstep (Lockstep.ask _)
  | set option v =>
    exact unit_lockstep ((setOption_composed respond option v).lockstep (Store.Deed.lockstep hr))
  | admits option v => exact replied_lockstep (Lockstep.ask _)
  | classNames => exact replied_lockstep (Lockstep.ask _)
  | classChars name => exact replied_lockstep (Lockstep.ask _)
  | pattern => exact replied_lockstep (Lockstep.ask _)
  | find text => exact replied_lockstep (Lockstep.ask _)
  | register id listener => exact unit_lockstep (register_lockstep id listener)
  | unregister id =>
    exact unit_lockstep (Lockstep.bind (Lockstep.ask _) fun _ => Lockstep.setStore _ _)
  | setLevel v =>
    refine unit_lockstep (Lockstep.bind (Lockstep.ofExcept _) fun level => ?_)
    exact setLevel_lockstep level
  | openBridge => exact unit_lockstep (Lockstep.map _ openBridge_lockstep)
  | access name args kwargs => exact replied_lockstep (access_lockstep hr name args kwargs)
  | attached =>
    refine Lockstep.bind currentBridge_lockstep fun bridge => ?_
    exact replied_lockstep (isAttached_lockstep bridge)
  | detach =>
    exact unit_lockstep (Lockstep.bind currentBridge_lockstep fun bridge => detach_lockstep bridge)
  | accessors => exact Lockstep.pure _
  | managed => exact Lockstep.pure _
  | openRunner settings standIn =>
    exact unit_lockstep (Lockstep.map _ (Runner.openNew_lockstep settings standIn))
  | evaluate job =>
    refine Lockstep.bind currentRunner_lockstep fun id => ?_
    exact replied_lockstep (Runner.evaluateTimed_lockstep hr id job)
  | evaluateWithin settings standIn jobs =>
    exact evaluateWithin_lockstep hr settings standIn jobs
  | late name args => exact replied_lockstep (late_lockstep hr name args)
  | closeRunner =>
    refine unit_lockstep (Lockstep.bind currentRunner_lockstep fun id => ?_)
    exact Runner.close_lockstep id
  | runnerClosed =>
    refine Lockstep.bind currentRunner_lockstep fun id => ?_
    exact replied_lockstep (Runner.at?_lockstep id)
  | sameBridge =>
    refine Lockstep.bind currentRunner_lockstep fun id => ?_
    refine Lockstep.bind (Runner.at?_lockstep id) fun runner => ?_
    refine Lockstep.of_get ?_ fun _ => Lockstep.pure _
    rintro h _ ⟨-, -⟩
    rfl

theorem respond_lockstep (depth : Nat) : (Session.respond depth).Lockstep Q apart := by
  induction depth with
  | zero =>
    rintro id change h g out h' inStep ⟨⟩
  | succ depth ih =>
    intro id change
    unfold Session.respond
    refine Lockstep.of_get ?_ fun h => ?_
    · rintro h _ ⟨-, -⟩
      rfl
    · split
      · exact Lockstep.pure _
      · exact Reaction.carryOut_lockstep (fun request => perform_lockstep ih request) _

theorem steps_lockstep {depth : Nat} {requests : List Request} {h g h' : Host}
    {replies : List (Except Raised Reply)} (inStep : h.InStep Q apart g)
    (e : steps depth requests h = some (replies, h')) :
    ∃ g', steps depth requests g = some (replies, g') ∧ h'.InStep Q apart g' := by
  induction requests generalizing h g replies with
  | nil =>
    cases e
    exact ⟨g, rfl, inStep⟩
  | cons request rest ih =>
    obtain ⟨⟨reply, h₁⟩, first, e⟩ := Option.bind_eq_some_iff.mp e
    obtain ⟨⟨others, h₂⟩, later, e⟩ := Option.bind_eq_some_iff.mp e
    cases e
    obtain ⟨g₁, first', between⟩ :=
      perform_lockstep (respond_lockstep depth) request inStep first
    obtain ⟨g₂, later', after⟩ := ih between later
    refine ⟨g₂, ?_, after⟩
    rw [steps, step, first']
    simp [later']

end Session

end OptionHost
