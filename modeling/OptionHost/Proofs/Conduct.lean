import OptionHost.Proofs.Evaluation
import OptionHost.Proofs.Move

/-!
# What acts and engines do

Whatever a host does is put together from a few deeds: an entry is made, the store takes a step, a
bridge or a runner is opened or closed, a call of an accessor is booked. A write is followed by the
telling of listeners, and an evaluation is a run of an engine between its opening and its end. A
relation that is closed under these holds between the host before and the host after every act, if
it holds for the responses of listeners. The acts are gone through once, for any such relation,
from the store upwards; of bridges and engines, what they are composed of is enough.
-/

namespace OptionHost

/-- Those who are told of a write, in order. -/
def Store.audience (s : Store) (change : Change) : List ListenerId :=
  if change.isReal then s.listeners else []

namespace Host

/-- Parties are told of a change in turn. What each of them does is done before the next one is
told. The telling may break off at any of them. -/
inductive Telling (R : Host → Host → Prop) (change : Change) :
    List ListenerId → Host → Host → Prop where
  | done (h : Host) : Telling R change [] h h
  | noted {ids : List ListenerId} {h h' : Host} {e : Entry} (quiet : e.isQuiet = true)
      (rest : Telling R change ids { h with journal := e :: h.journal } h') :
      Telling R change ids h h'
  | told {id : ListenerId} {ids : List ListenerId} {h h₁ h₂ : Host}
      (heard : R { h with journal := .notified id change :: h.journal } h₁)
      (rest : Telling R change ids h₁ h₂) : Telling R change (id :: ids) h h₂
  | cut {id : ListenerId} {ids : List ListenerId} {h h₁ : Host}
      (heard : R { h with journal := .notified id change :: h.journal } h₁) :
      Telling R change (id :: ids) h { h₁ with journal := .cut id change :: h₁.journal }

/-- A relation that goes on from host to host, whatever is noted on the way. -/
class Chronicle (R : Host → Host → Prop) : Prop where
  refl (h : Host) : R h h
  trans {h h₁ h₂ : Host} (first : R h h₁) (second : R h₁ h₂) : R h h₂
  noted (h : Host) {e : Entry} (quiet : e.isQuiet = true) :
    R h { h with journal := e :: h.journal }

/-- A relation that is closed under what a host does besides writing options and evaluating
scripts. -/
class Upkeep (R : Host → Host → Prop) : Prop extends Chronicle R where
  stored {h : Host} {t : Store} (step : h.store.Step none t) :
    R h { h with store := t, journal := .stored t none :: h.journal }
  levelSet (h : Host) (level : Level) : R h { h with level := level }
  bridgeOpened (h : Host) :
    R h { h with bridges := h.bridges ++ [true], bridge := some h.bridges.length }
  bridgeDetached (h : Host) (bridge : Nat) :
    R h { h with bridges := h.bridges.set bridge false }
  /-- A runner comes with a bridge of its own, -/
  runnerOpened (h : Host) (config : RunnerConfig) (i : Interpreter) :
    R h { h with
      bridges := h.bridges ++ [true]
      bridge := some h.bridges.length
      runners := h.runners ++ [⟨config, i, h.bridges.length, false⟩]
      runner := some h.runners.length }
  /-- which is detached when it is closed. -/
  runnerClosed {h : Host} {id : Nat} {runner : Runner} (found : h.runners[id]? = some runner) :
    R h { h with
      bridges := h.bridges.set runner.bridge false
      runners := h.runners.modify id fun runner => { runner with closed := true } }
  listenerAdded (h : Host) (id : ListenerId) (listener : Listener) :
    R h { h with listeners := h.listeners ++ [(id, listener)] }

/-- A relation that is closed under what a host does. -/
class Conduct (R : Host → Host → Prop) : Prop extends Upkeep R where
  wrote {h h' : Host} {option value : Value} {change : Change} {t : Store}
    (written : h.store.write option value = .ok (change, t))
    (telling : Telling R change (h.store.audience change)
      { h with store := t, journal := .stored t (some change) :: h.journal } h') : R h h'
  /-- A call is booked for an evaluation that was under way when the call was made. -/
  accessed {h h₁ : Host} {id : Nat} {e : Evaluation} (open_ : h.evaluations[id]? = some e)
    (underWay : e.finished = false) (called : R h h₁) (a : Accessor) (outcome : Outcome)
    (came : ∃ respond args kwargs,
      Act.access respond e.bridge a args kwargs h = some (outcome, h₁)) :
    R h { h₁ with
      evaluations := h₁.evaluations.modify id (·.after outcome)
      journal := .accessed id a outcome :: h₁.journal }
  /-- An engine runs between the opening of an evaluation and its end; a script that was given up
  goes on after it. -/
  evaluated {h h₁ h₂ : Host} {id : Nat} {runner : Runner} (found : h.runners[id]? = some runner)
    (ran : R (runner.entered h) h₁) (rest : R (Runner.expired h.evaluations.length h₁) h₂) :
    R h h₂

end Host

/-- Every run of the act keeps to the relation. -/
def Act.Along {α : Type} (R : Host → Host → Prop) (act : Act α) : Prop :=
  ∀ ⦃h out h'⦄, act h = some (out, h') → R h h'

open Host (Chronicle Upkeep Conduct Telling)

variable {R : Host → Host → Prop}

namespace Act.Along

variable {α β : Type} [Chronicle R]

omit [Chronicle R] in
protected theorem path {x : Act α} {h h' : Host} {out : Except Raised α} (hx : Along R x)
    (e : x h = some (out, h')) : R h h' :=
  hx e

protected theorem pure (a : α) : Along R (pure a : Act α) := by
  rintro h out h' ⟨⟩
  exact Chronicle.refl h

protected theorem throw (r : Raised) : Along R (throw r : Act α) := by
  rintro h out h' ⟨⟩
  exact Chronicle.refl h

protected theorem fail (fault : Fault) : Along R (fail fault : Act α) := Along.throw _

protected theorem get : Along R (get : Act Host) := by
  rintro h out h' ⟨⟩
  exact Chronicle.refl h

protected theorem bind {x : Act α} {f : α → Act β} (hx : Along R x)
    (hf : ∀ a, Along R (f a)) : Along R (x >>= f) := by
  intro h out h' e
  obtain ⟨r, ex, rfl⟩ | ⟨a, h₁, ex, ef⟩ := bind_eq_some e
  · exact hx ex
  · exact Chronicle.trans (hx ex) (hf a ef)

protected theorem map {x : Act α} (f : α → β) (hx : Along R x) : Along R (f <$> x) := by
  rw [map_eq_pure_bind]
  exact Along.bind hx fun _ => Along.pure _

omit [Chronicle R] in
protected theorem attempt {x : Act α} (hx : Along R x) : Along R (attempt x) := by
  intro h out h' e
  obtain ⟨inner, rfl, ex⟩ := attempt_eq_some e
  exact hx ex

protected theorem ofExcept (e : Except Fault α) : Along R (ofExcept e) := by
  cases e with
  | ok a => exact Along.pure a
  | error fault => exact Along.fail fault

protected theorem ask (f : Store → Except Fault α) : Along R (ask f) :=
  Along.bind Along.get fun _ => Along.ofExcept _

protected theorem mapM {f : α → Act β} (hf : ∀ a, Along R (f a)) (as : List α) :
    Along R (as.mapM f) := by
  induction as with
  | nil => exact Along.pure _
  | cons a as ih =>
    rw [List.mapM_cons]
    exact Along.bind (hf a) fun _ => Along.bind ih fun _ => Along.pure _

omit [Chronicle R] in
/-- An act that changes the host at one go. -/
theorem of_modify {f : Host → Host} (hf : ∀ h : Host, R h (f h)) :
    Along R (modify f : Act Unit) := by
  rintro h out h' ⟨⟩
  exact hf h

protected theorem record {e : Entry} (quiet : e.isQuiet = true) : Along R (record e) :=
  of_modify fun h => Chronicle.noted h quiet

protected theorem say (r : Record) : Along R (say r) := by
  unfold say
  refine Along.bind Along.get fun h => ?_
  split
  · exact Along.record rfl
  · exact Along.pure _

end Act.Along

theorem Act.Composed.along [Chronicle R] {Deed : (α : Type) → Act α → Prop} {α : Type} {x : Act α}
    (deeds : ∀ {β : Type} {y : Act β}, Deed β y → y.Along R) (composed : x.Composed Deed) :
    x.Along R := by
  induction composed with
  | deed done => exact deeds done
  | pure a => exact Along.pure a
  | bind _ _ first next => exact Along.bind first next
  | attempt _ tried => exact Along.attempt tried

/-- Every response of a listener keeps to the relation. -/
def Response.Along (R : Host → Host → Prop) (respond : Response) : Prop :=
  ∀ id change, (respond id change).Along R

/-- The least number of too many digits. -/
def Value.overlong : Int := Int.ofNat (Nat.pow 10 digitLimit)

theorem Value.isWritable_overlong : (Value.int overlong).isWritable = false := by
  have natAbs : overlong.natAbs = Nat.pow 10 digitLimit := Int.natAbs_natCast _
  have long : ¬(Value.int overlong).isWritable = true := by
    rw [isWritable_int_iff, natAbs]
    exact Nat.lt_irrefl _
  exact Bool.eq_false_iff.mpr long

/-- A failure without a text: an unknown key that is a number of one digit too many. -/
def Raised.mute : Raised := ⟨.unknownKey (.int Value.overlong), none⟩

theorem Raised.text?_mute : mute.text? = none := Fault.text?_unknownKey Value.isWritable_overlong

namespace Act

variable {respond : Response}

/-! ## The store and its bridges -/

section Upkeep

variable [Upkeep R]

/-- A step of the store that is no write, and what follows it. -/
theorem setStore_bind_along {α : Type} {h h' : Host} {t : Store} {rest : Act α}
    {out : Except Raised α} (step : h.store.Step none t) (hr : rest.Along R)
    (e : (setStore t none >>= fun _ => rest) h = some (out, h')) : R h h' := by
  rw [bind_of_ok (setStore_apply t none h)] at e
  exact Chronicle.trans (Upkeep.stored step) (hr e)

theorem startStore_along : startStore.Along R := by
  intro h out h' e
  unfold startStore at e
  rw [ask_pure_bind_apply] at e
  cases started : h.store.start with
  | error fault =>
    rw [started, ofExcept_error, fail_bind_apply] at e
    cases e
    exact Chronicle.refl h
  | ok t =>
    rw [started, ofExcept_ok, pure_bind_apply] at e
    refine setStore_bind_along (.start started) ?_ e
    split
    · split
      · exact Along.say _
      · exact Along.pure _
    · exact Along.pure _

theorem closeStore_along : closeStore.Along R := by
  intro h out h' e
  unfold closeStore at e
  rw [ask_pure_bind_apply] at e
  refine setStore_bind_along (.close h.store) ?_ e
  split
  · exact Along.say _
  · exact Along.pure _

theorem openBridge_along : openBridge.Along R := by
  rintro h out h' ⟨⟩
  exact Upkeep.bridgeOpened h

theorem isAttached_along (bridge : Nat) : (isAttached bridge).Along R :=
  Along.bind Along.get fun _ => Along.pure _

theorem detach_along (bridge : Nat) : (detach bridge).Along R :=
  Along.bind (Along.of_modify fun h => Upkeep.bridgeDetached h bridge) fun _ => Along.say _

end Upkeep

/-! ## Writes -/

theorem Telling.said {change : Change} {ids : List ListenerId} {h h' : Host} (r : Record)
    (rest : Telling R change ids { h with journal := sayEntries h r ++ h.journal } h') :
    Telling R change ids h h' := by
  unfold sayEntries at rest
  split at rest
  · exact .noted rfl rest
  · exact rest

/-- What comes of telling a party. It is heard out, and a failure of it is written about; a failure
without a text breaks the telling off. -/
inductive Told (respond : Response) (change : Change) (id : ListenerId) (h : Host) :
    Except Raised Unit → Host → Prop where
  | returned {h₁ : Host}
      (heard : respond id change { h with journal := .notified id change :: h.journal } =
        some (.ok (), h₁)) : Told respond change id h (.ok ()) h₁
  | failed {h₁ : Host} {r : Raised} {text : String}
      (heard : respond id change { h with journal := .notified id change :: h.journal } =
        some (.error r, h₁)) (said : r.text? = some text) :
      Told respond change id h (.ok ())
        { h₁ with journal := sayEntries h₁ (listenerRecord change text) ++ h₁.journal }
  | cut {h₁ : Host} {r : Raised}
      (heard : respond id change { h with journal := .notified id change :: h.journal } =
        some (.error r, h₁)) (unsaid : r.text? = none) :
      Told respond change id h (.error Fault.unwritable)
        { h₁ with journal := .cut id change :: h₁.journal }

theorem tell_told {change : Change} {id : ListenerId} {h h' : Host} {out : Except Raised Unit}
    (e : tell respond change id h = some (out, h')) : Told respond change id h out h' := by
  unfold tell at e
  rw [bind_of_ok (record_apply _ h)] at e
  obtain ⟨outcome, h₁, heard, done⟩ := attempt_bind_eq_some e
  cases outcome with
  | ok _ =>
    cases done
    exact .returned heard
  | error r =>
    cases said : r.text? with
    | some text =>
      simp only [said] at done
      rw [say_apply] at done
      cases done
      exact .failed heard said
    | none =>
      simp only [said] at done
      cases done
      exact .cut heard said

/-- A party whose failure has no text is the last one to be told. -/
theorem tell_of_textless {change : Change} {id : ListenerId} {h h₁ : Host} {r : Raised}
    (heard : respond id change { h with journal := .notified id change :: h.journal } =
      some (.error r, h₁)) (unsaid : r.text? = none) :
    tell respond change id h =
      some (.error Fault.unwritable, { h₁ with journal := .cut id change :: h₁.journal }) := by
  unfold tell
  rw [bind_of_ok (record_apply _ h), bind_of_ok (attempt_of_some heard)]
  dsimp only
  rw [unsaid]
  rfl

theorem forM_tell_telling (hr : respond.Along R) (change : Change) (ids : List ListenerId)
    {h h' : Host} {out : Except Raised Unit}
    (e : ids.forM (tell respond change) h = some (out, h')) : Telling R change ids h h' := by
  induction ids generalizing h with
  | nil =>
    cases e
    exact .done _
  | cons id ids ih =>
    change (tell respond change id >>= fun _ => ids.forM (tell respond change)) h = _ at e
    obtain ⟨r, broken, -⟩ | ⟨_, h₁, told, e⟩ := bind_eq_some e
    · cases tell_told broken with
      | cut heard _ => exact .cut (hr id change heard)
    · cases tell_told told with
      | returned heard => exact .told (hr id change heard) (ih e)
      | failed heard _ => exact .told (hr id change heard) (Telling.said _ (ih e))

/-- A write that the store takes is followed by the telling of those who are registered. -/
theorem setOption_telling (hr : respond.Along R) {option value : Value} {change : Change}
    {t : Store} {h h' : Host} {out : Except Raised Unit}
    (written : h.store.write option value = .ok (change, t))
    (e : setOption respond option value h = some (out, h')) :
    Telling R change (h.store.audience change)
      { h with store := t, journal := .stored t (some change) :: h.journal } h' := by
  unfold setOption at e
  rw [ask_pure_bind_apply, written, ofExcept_ok, pure_bind_apply] at e
  dsimp only at e
  rw [bind_of_ok (setStore_apply t _ h), bind_of_ok (say_apply _ _)] at e
  refine Telling.said (changeRecord change) ?_
  unfold Store.audience
  split at e
  · rw [if_pos ‹_›]
    exact forM_tell_telling hr change _ e
  · rw [if_neg ‹_›]
    cases e
    exact .done _

/-- The telling of a change broke off: a party failed, and its failure has no text. -/
def BrokeOff (respond : Response) (change : Change) (h' : Host) : Prop :=
  ∃ id h h₁ r, respond id change h = some (.error r, h₁) ∧ r.text? = none ∧
    h' = { h₁ with journal := .cut id change :: h₁.journal }

theorem forM_tell_outcome {change : Change} {ids : List ListenerId} {h h' : Host}
    {out : Except Raised Unit} (e : ids.forM (tell respond change) h = some (out, h')) :
    out = .ok () ∨ out = .error Fault.unwritable ∧ BrokeOff respond change h' := by
  induction ids generalizing h with
  | nil =>
    cases e
    exact .inl rfl
  | cons id ids ih =>
    change (tell respond change id >>= fun _ => ids.forM (tell respond change)) h = _ at e
    obtain ⟨r, broken, rfl⟩ | ⟨_, h₁, told, e⟩ := bind_eq_some e
    · cases tell_told broken with
      | cut heard unsaid => exact .inr ⟨rfl, id, _, _, _, heard, unsaid, rfl⟩
    · exact ih e

/-- A write that the store takes fails only if the telling of the change breaks off. -/
theorem setOption_of_written {option value : Value} {change : Change} {t : Store}
    {h h' : Host} {out : Except Raised Unit}
    (written : h.store.write option value = .ok (change, t))
    (e : setOption respond option value h = some (out, h')) :
    out = .ok () ∨ out = .error Fault.unwritable ∧ BrokeOff respond change h' := by
  unfold setOption at e
  rw [ask_pure_bind_apply, written, ofExcept_ok, pure_bind_apply] at e
  dsimp only at e
  rw [bind_of_ok (setStore_apply t _ h), bind_of_ok (say_apply _ _)] at e
  split at e
  · exact forM_tell_outcome e
  · cases e
    exact .inl rfl

/-- The host as the first party is told of a write. -/
def announced (h : Host) (t : Store) (change : Change) : Host :=
  { h with
    store := t
    journal := sayEntries h (changeRecord change) ++ .stored t (some change) :: h.journal }

/-- If the failure of the first party has no text, the write ends with it. -/
theorem setOption_of_textless {option value : Value} {change : Change} {t : Store} {h h₁ : Host}
    {id : ListenerId} {ids : List ListenerId} {r : Raised}
    (written : h.store.write option value = .ok (change, t)) (real : change.isReal = true)
    (listed : h.store.listeners = id :: ids)
    (heard : respond id change { announced h t change with
      journal := .notified id change :: (announced h t change).journal } = some (.error r, h₁))
    (unsaid : r.text? = none) :
    setOption respond option value h =
      some (.error Fault.unwritable, { h₁ with journal := .cut id change :: h₁.journal }) := by
  unfold setOption
  rw [ask_pure_bind_apply, written, ofExcept_ok, pure_bind_apply]
  dsimp only
  rw [bind_of_ok (setStore_apply t _ h), bind_of_ok (say_apply _ _), if_pos real, listed]
  exact bind_of_error (tell_of_textless heard unsaid)

theorem setOption_of_refused {option value : Value} {fault : Fault} {h : Host}
    (refused : h.store.write option value = .error fault) :
    setOption respond option value h = some (.error ⟨fault, none⟩, h) := by
  unfold setOption
  rw [ask_pure_bind_apply, refused, ofExcept_error, fail_bind_apply]

variable [Conduct R]

theorem setOption_along (hr : respond.Along R) (option value : Value) :
    (setOption respond option value).Along R := by
  intro h out h' e
  cases written : h.store.write option value with
  | error fault =>
    rw [setOption_of_refused written] at e
    cases e
    exact Chronicle.refl h
  | ok p => exact Conduct.wrote written (setOption_telling hr written e)

end Act

/-! ## Calls of accessors -/

theorem Bridge.Deed.along {respond : Response} [Conduct R] (hr : respond.Along R) {α : Type}
    {x : Act α} (done : Bridge.Deed respond α x) : x.Along R := by
  cases done with
  | asks f => exact Act.Along.ask f
  | writes option value => exact Act.setOption_along hr option value
  | logs r => exact Act.Along.say r
  | refuses r => exact Act.Along.throw r

namespace Act

variable {respond : Response} [Conduct R]

theorem access_along (hr : respond.Along R) (bridge : Nat) (a : Accessor) (args : List Value)
    (kwargs : Entries) : (access respond bridge a args kwargs).Along R :=
  Along.bind (isAttached_along bridge) fun attached =>
    (Bridge.call_composed respond attached a args kwargs).along (Bridge.Deed.along hr)

/-! ## Evaluations -/

/-- A call is only booked for an evaluation that was under way. -/
theorem accessWithin_along (hr : respond.Along R) (id : Nat) (a : Accessor)
    (args : List Value) (kwargs : Entries) :
    (accessWithin respond id a args kwargs).Along R := by
  intro h out h' e
  unfold accessWithin at e
  rw [bind_of_ok (show evaluation id h = some (.ok _, h) from rfl)] at e
  split at e
  · cases e
    exact Chronicle.refl h
  · rename_i live
    cases found : h.evaluations[id]? with
    | none =>
      rw [found] at live
      exact absurd rfl live
    | some open_ =>
      rw [found, Option.getD_some] at live e
      obtain ⟨outcome, h₁, called, booked⟩ := attempt_bind_eq_some e
      rw [bind_of_ok (show noteAccess id a outcome h₁ = some (.ok (), _) from rfl),
        ofOutcome_apply] at booked
      cases booked
      exact Conduct.accessed found (Bool.not_eq_true _ ▸ live)
        (access_along hr _ a args kwargs called) a out ⟨respond, args, kwargs, called⟩

end Act

/-! ## Engines -/

/-- Every call of an accessor that an engine makes keeps to the relation. -/
def Site.Along (R : Host → Host → Prop) (site : Site) : Prop :=
  ∀ run a args kwargs, (Act.accessWithin site.respond run a args kwargs).Along R

theorem Site.along [Conduct R] (site : Site) (hr : site.respond.Along R) : site.Along R :=
  fun run a args kwargs => Act.accessWithin_along hr run a args kwargs

namespace Site

variable {site : Site} [Chronicle R] {α : Type} {x : Act α}

theorem Service.along (hs : site.Along R) (done : site.Service α x) : x.Along R := by
  cases done with
  | logs r => exact Act.Along.say r
  | notes quiet => exact Act.Along.record quiet
  | accesses run a args kwargs => exact hs run a args kwargs
  | fails r => exact Act.Along.throw r

theorem Deed.along (hs : site.Along R) (done : site.Deed α x) : x.Along R := by
  cases done with
  | logs r => exact Act.Along.say r
  | notes quiet => exact Act.Along.record quiet
  | calls f args kwargs =>
    exact Act.Along.attempt ((site.invoke_composed f args kwargs).along (Service.along hs))

end Site

end OptionHost
