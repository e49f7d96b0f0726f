import OptionHost.Proofs.Conduct

/-!
# What requests do

A relation that is closed under what a host does holds between the host before and the host after
every request. For a request that writes no option and has no script evaluated, less is enough. A
listener responds with requests again, so the responses are covered by an induction on the depth to
which they nest. To be reached by moves is such a relation.
-/

namespace OptionHost

open Act
open Host (Chronicle Upkeep Conduct Telling)

variable {R : Host → Host → Prop}

namespace Runner

section Upkeep

variable [Upkeep R]

theorem openEngine_along (config : RunnerConfig) : (openEngine config).Along R := by
  unfold openEngine
  cases config.interpreter? with
  | none => exact Along.fail _
  | some i =>
    dsimp only
    split
    · exact Along.bind (Along.say _) fun _ => Along.pure _
    · exact Along.pure _

theorem openNew_along (settings : List (String × Value)) (standIn : Bool) :
    (openNew settings standIn).Along R := by
  have opened (config : RunnerConfig) (i : Interpreter) : Along R (do
      let bridge ← openBridge
      let id := (← get).runners.length
      modify fun h =>
        { h with runners := h.runners ++ [⟨config, i, bridge, false⟩], runner := some id }
      say (openRecord config)
      return id) := by
    intro h out h' e
    rw [bind_of_ok (show openBridge h = some (.ok h.bridges.length, _) from rfl),
      get_bind_apply, modify_bind_apply] at e
    refine Chronicle.trans (Upkeep.runnerOpened h config i) ?_
    exact (Along.bind (Along.say _) fun _ => Along.pure _).path e
  unfold openNew
  refine Along.bind (Along.ofExcept _) fun config => ?_
  dsimp only
  split
  · exact Along.bind (Along.pure _) fun i => opened config i
  · exact Along.bind (openEngine_along config) fun i => opened config i

theorem at?_along (id : Nat) : (at? id).Along R :=
  Along.bind Along.get fun _ => Along.pure _

theorem close_along (id : Nat) : (close id).Along R := by
  intro h out h' e
  unfold close at e
  rw [bind_of_ok (show at? id h = some (.ok h.runners[id]?, h) from rfl)] at e
  cases found : h.runners[id]? with
  | none =>
    rw [found] at e
    cases e
    exact Chronicle.refl h
  | some runner =>
    rw [found] at e
    dsimp only at e
    split at e
    · unfold detach at e
      rw [bind_assoc, modify_bind_apply, bind_of_ok (say_apply _ _), modify_bind_apply] at e
      refine Chronicle.trans (Upkeep.runnerClosed found) ?_
      exact Chronicle.trans (Along.say _ (say_apply _ _)) (Along.say _ e)
    · cases e
      exact Chronicle.refl h

end Upkeep

theorem runEngine_alongSite [Chronicle R] (i : Interpreter) (site : Site) (hs : site.Along R)
    (globals : Table) (job : Job) : (runEngine i site globals job).Along R :=
  (runEngine_composed site i globals job).along (Site.Deed.along hs)

theorem afterwards_alongSite [Chronicle R] (site : Site) (hs : site.Along R) (globals : Table)
    (rest : Option Behaviour) : (afterwards site globals rest).Along R :=
  (afterwards_composed site globals rest).along (Site.Deed.along hs)

variable {respond : Response} [Conduct R]

theorem runEngine_along (i : Interpreter) (site : Site) (hr : site.respond.Along R)
    (globals : Table) (job : Job) : (runEngine i site globals job).Along R :=
  runEngine_alongSite i site (site.along hr) globals job

theorem afterwards_along (site : Site) (hr : site.respond.Along R) (globals : Table)
    (rest : Option Behaviour) : (afterwards site globals rest).Along R :=
  afterwards_alongSite site (site.along hr) globals rest

theorem evaluate_along (hr : respond.Along R) (id : Nat) (job : Job) :
    (evaluate respond id job).Along R := by
  intro h out h' e
  cases found : h.runners[id]? with
  | none =>
    rw [evaluate_of_not_found found] at e
    cases e
    exact Chronicle.refl h
  | some runner =>
    cases decision : refusal? runner job with
    | some fault =>
      rw [evaluate_of_refused found decision] at e
      cases e
      exact Chronicle.refl h
    | none =>
      obtain ⟨outcome, rest, h₂, ended, ran, -, went⟩ := evaluate_cases found decision e
      refine Conduct.evaluated found (runEngine_along _ (runner.site respond h) hr _ job ran) ?_
      exact afterwards_along (runner.site respond h) hr _ rest went

theorem evaluateTimed_along (hr : respond.Along R) (id : Nat) (job : Job) :
    (evaluateTimed respond id job).Along R := by
  intro h out h' e
  obtain ⟨-, evaluated⟩ | ⟨runner, _, _, _, _, found, -, -, noted, went⟩ :=
    evaluateTimed_cases e
  · exact evaluate_along hr id job evaluated
  · have along : (runner.site respond h).Along R := (runner.site respond h).along hr
    refine Conduct.evaluated found
      ((noteLimit_composed _ (runner.site respond h)).along (Site.Deed.along along) noted) ?_
    exact (unawaited_composed _ _ _ job).along (Site.Deed.along along) went

end Runner

/-! ## Requests that write no option -/

/-- A request that writes no option and has no script evaluated. -/
def Request.isIdle : Request → Bool
  | .set .. | .access .. | .evaluate _ | .evaluateWithin .. | .late .. => false
  | _ => true

namespace Session

section Upkeep

variable [Upkeep R]

theorem setLevel_along (level : Level) : (setLevel level).Along R :=
  Along.bind (Along.of_modify fun h => Upkeep.levelSet h level) fun _ => Along.say _

theorem register_along (id : ListenerId) (listener : Listener) :
    (register id listener).Along R := by
  have registered : Along R (do setStore ((← get).store.register id) none) := by
    rintro h out h' ⟨⟩
    exact Upkeep.stored (.register h.store id)
  refine Along.bind Along.get fun h => ?_
  dsimp only
  split
  · refine Along.bind (Along.of_modify fun h => ?_) fun _ => registered
    exact Upkeep.listenerAdded h id listener
  · exact registered

theorem unregister_along (id : ListenerId) :
    Along R (do setStore (← ask (·.unregister id)) none) := by
  intro h out h' e
  unfold ask at e
  rw [bind_assoc, get_bind_apply] at e
  dsimp only at e
  cases removed : h.store.unregister id with
  | error fault =>
    rw [removed, ofExcept_error, fail_bind_apply] at e
    cases e
    exact Chronicle.refl h
  | ok t =>
    rw [removed, ofExcept_ok, pure_bind_apply] at e
    cases e
    exact Upkeep.stored (.unregister removed)

theorem currentBridge_along : currentBridge.Along R :=
  Along.bind Along.get fun _ => Along.pure _

theorem currentRunner_along : currentRunner.Along R :=
  Along.bind Along.get fun _ => Along.pure _

theorem unit_along {act : Act Unit} (ha : act.Along R) : (unit act).Along R :=
  Along.bind ha fun _ => Along.pure _

theorem replied {α : Type} {act : Act α} {f : α → Reply} (ha : act.Along R) :
    Along R (do return f (← act)) :=
  Along.bind ha fun _ => Along.pure _

theorem perform_alongIdle (respond : Response) {request : Request}
    (idle : request.isIdle = true) : (perform respond request).Along R := by
  cases request with
  | start => exact unit_along startStore_along
  | close => exact unit_along closeStore_along
  | stage => exact replied Along.get
  | optionNames => exact Along.pure _
  | get option => exact replied (Along.ask _)
  | admits option v => exact replied (Along.ask _)
  | classNames => exact replied (Along.ask _)
  | classChars name => exact replied (Along.ask _)
  | pattern => exact replied (Along.ask _)
  | find text => exact replied (Along.ask _)
  | register id listener => exact unit_along (register_along id listener)
  | unregister id => exact unit_along (unregister_along id)
  | setLevel v =>
    exact unit_along (Along.bind (Along.ofExcept _) fun level => setLevel_along level)
  | openBridge => exact unit_along (Along.map _ openBridge_along)
  | attached =>
    refine Along.bind currentBridge_along fun bridge => ?_
    exact replied (isAttached_along bridge)
  | detach =>
    exact unit_along (Along.bind currentBridge_along fun bridge => detach_along bridge)
  | accessors => exact Along.pure _
  | managed => exact Along.pure _
  | openRunner settings standIn =>
    exact unit_along (Along.map _ (Runner.openNew_along settings standIn))
  | closeRunner =>
    exact unit_along (Along.bind currentRunner_along fun id => Runner.close_along id)
  | runnerClosed =>
    refine Along.bind currentRunner_along fun id => ?_
    exact replied (Runner.at?_along id)
  | sameBridge =>
    refine Along.bind currentRunner_along fun id => ?_
    exact Along.bind (Runner.at?_along id) fun runner => replied Along.get
  | _ => cases idle

end Upkeep

end Session

/-! ## Requests and responses -/

theorem Reaction.carryOut_along [Chronicle R] {ρ : Type} {perform : ρ → Act Reply}
    (hp : ∀ request, (perform request).Along R) (reaction : Reaction ρ) :
    (reaction.carryOut perform).Along R := by
  induction reaction with
  | returns => exact Along.pure _
  | raises r => exact Along.throw r
  | does request next ih =>
    refine Along.bind (Along.attempt ?_) ih
    exact Along.bind (hp request) fun _ => Along.pure _

namespace Session

variable {respond : Response} [Conduct R]

theorem access_along (hr : respond.Along R) (name : String) (args : List Value)
    (kwargs : Entries) : (access respond name args kwargs).Along R := by
  unfold access
  cases Accessor.ofName? name with
  | none => exact Along.fail _
  | some a =>
    exact Along.bind currentBridge_along fun bridge =>
      Act.access_along hr bridge a args kwargs

theorem late_along (hr : respond.Along R) (name : String) (args : List Value) :
    (late respond name args).Along R := by
  refine Along.bind Along.get fun h => ?_
  split
  · exact accessWithin_along hr _ _ args []
  · exact Along.fail _

theorem evaluateWithin_along (hr : respond.Along R) (settings : List (String × Value))
    (standIn : Bool) (jobs : List Job) :
    (evaluateWithin respond settings standIn jobs).Along R := by
  refine Along.bind (Runner.openNew_along settings standIn) fun id => ?_
  refine Along.bind (Along.mapM (fun job => ?_) jobs) fun results => ?_
  · exact Along.attempt (Runner.evaluateTimed_along hr id job)
  · refine Along.bind (Runner.close_along id) fun _ => ?_
    exact Along.bind (Runner.at?_along id) fun _ => Along.pure _

theorem perform_along (hr : respond.Along R) (request : Request) :
    (perform respond request).Along R := by
  cases idle : request.isIdle with
  | true => exact perform_alongIdle respond idle
  | false =>
    cases request with
    | set option v => exact unit_along (setOption_along hr option v)
    | access name args kwargs => exact replied (access_along hr name args kwargs)
    | evaluate job =>
      refine Along.bind currentRunner_along fun id => ?_
      exact replied (Runner.evaluateTimed_along hr id job)
    | evaluateWithin settings standIn jobs =>
      exact evaluateWithin_along hr settings standIn jobs
    | late name args => exact replied (late_along hr name args)
    | _ => cases idle

theorem respond_along (depth : Nat) : (Session.respond depth).Along R := by
  induction depth with
  | zero =>
    rintro id change h out h' ⟨⟩
  | succ depth ih =>
    intro id change
    unfold Session.respond
    refine Along.bind Along.get fun h => ?_
    split
    · exact Along.pure _
    · exact Reaction.carryOut_along (fun request => perform_along ih request) _

theorem step_along {depth : Nat} {request : Request} {h h' : Host}
    {reply : Except Raised Reply} (e : step depth request h = some (reply, h')) : R h h' :=
  (perform_along (respond_along depth) request).path e

theorem steps_along {depth : Nat} {requests : List Request} {h h' : Host}
    {replies : List (Except Raised Reply)}
    (e : steps depth requests h = some (replies, h')) : R h h' := by
  induction requests generalizing h replies with
  | nil =>
    cases e
    exact Chronicle.refl _
  | cons request rest ih =>
    obtain ⟨⟨reply, h₁⟩, first, e⟩ := Option.bind_eq_some_iff.mp e
    obtain ⟨⟨others, h₂⟩, later, e⟩ := Option.bind_eq_some_iff.mp e
    cases e
    exact Chronicle.trans (step_along first) (ih later)

theorem steps_cons {depth : Nat} {request : Request} {requests : List Request} {h h₁ h' : Host}
    {reply : Except Raised Reply} {replies : List (Except Raised Reply)}
    (first : step depth request h = some (reply, h₁))
    (rest : steps depth requests h₁ = some (replies, h')) :
    steps depth (request :: requests) h = some (reply :: replies, h') := by
  simp only [steps, first, rest, Option.bind_eq_bind, Option.bind_some]
  rfl

theorem steps_append {depth : Nat} {requests later : List Request} {h h₁ h' : Host}
    {replies others : List (Except Raised Reply)}
    (first : steps depth requests h = some (replies, h₁))
    (rest : steps depth later h₁ = some (others, h')) :
    steps depth (requests ++ later) h = some (replies ++ others, h') := by
  induction requests generalizing h replies with
  | nil =>
    cases first
    exact rest
  | cons request requests ih =>
    obtain ⟨⟨reply, h₂⟩, made, first⟩ := Option.bind_eq_some_iff.mp first
    obtain ⟨⟨between, h₃⟩, went, first⟩ := Option.bind_eq_some_iff.mp first
    cases first
    exact steps_cons made (ih went)

end Session

/-! ## Moves -/

namespace Runner

theorem entered_path (runner : Runner) (h : Host) : h.Path (runner.entered h) := by
  have opened : h.Move { h with evaluations := h.evaluations ++ [⟨runner.bridge, false, []⟩] } :=
    .evaluationOpened runner.bridge
  unfold entered
  split
  · exact (Relation.ReflTransGen.single opened).tail (.injected h.evaluations.length)
  · exact .single opened

end Runner

theorem Entry.isPlain_of_isQuiet {e : Entry} (quiet : e.isQuiet = true) : e.isPlain = true := by
  cases e with
  | stored store write => cases quiet
  | accessed run a outcome => cases quiet
  | _ => rfl

theorem Host.Telling.path {change : Change} {ids : List ListenerId} {h h' : Host}
    (telling : Telling Host.Path change ids h h') : h.Path h' := by
  induction telling with
  | done h => exact .refl
  | noted quiet _ ih => exact .head (.noted _ (Entry.isPlain_of_isQuiet quiet)) ih
  | told heard _ ih => exact .head (.noted _ rfl) (heard.trans ih)
  | cut heard => exact .head (.noted _ rfl) (heard.tail (.noted _ rfl))

instance : Conduct Host.Path where
  refl h := .refl
  trans first second := first.trans second
  noted h _ quiet := .single (.noted _ (Entry.isPlain_of_isQuiet quiet))
  stored step := .single (.stored step)
  wrote written telling := .head (.stored (.write written)) telling.path
  levelSet h level := .single (.levelSet level)
  bridgeOpened h := .single .bridgeOpened
  bridgeDetached h bridge := .single (.bridgeDetached bridge)
  runnerOpened h config i := .head .bridgeOpened (.single (.runnerOpened _))
  runnerClosed found := .head (.bridgeDetached _) (.single (.runnerClosed _))
  listenerAdded h id listener := .single (.listenerAdded id listener)
  accessed found _ called a outcome _ := by
    refine called.tail (.accessed _ a outcome ?_)
    exact Nat.lt_of_lt_of_le (List.getElem?_eq_some_iff.mp found).1 (Host.Path.evaluations_le called)
  evaluated found ran rest :=
    (Runner.entered_path _ _).trans (ran.trans (.head (.evaluationFinished _) rest))

theorem Runner.runEngine_byMoves (i : Interpreter) (site : Site)
    (hr : site.respond.Along Host.Path) (globals : Table) (job : Job) :
    (runEngine i site globals job).Along Host.Path :=
  runEngine_along i site hr globals job

namespace Session

theorem respond_byMoves (depth : Nat) : (Session.respond depth).Along Host.Path :=
  respond_along depth

theorem steps_path {depth : Nat} {requests : List Request} {h h' : Host}
    {replies : List (Except Raised Reply)}
    (e : steps depth requests h = some (replies, h')) : h.Path h' :=
  steps_along e

end Session

end OptionHost
