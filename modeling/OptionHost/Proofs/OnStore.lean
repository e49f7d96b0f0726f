import OptionHost.Proofs.Composition

/-!
# Acts that concern the store alone

What such an act does can be read off from a host that has nothing but the store, the listeners
and the level of the journal: on any other host it has the same outcome, does the same to the
store and to the listeners, writes the same entries, and leaves everything else alone. Whether a
listener is of this kind depends on the requests that it makes and on the listeners that it
registers.
-/

namespace OptionHost

/-! ## Listeners that act on the store only -/

/-- A request that only the store is asked to answer, and that brings in no listener. -/
def Request.concernsStore : Request → Bool
  | .start | .close | .stage | .optionNames | .get _ | .set _ _ | .admits _ _ | .classNames
  | .classChars _ | .pattern | .find _ | .unregister _ => true
  | _ => false

mutual

/-- A request to the store. A listener that it registers makes none but such requests. -/
inductive Request.StoreOnly : Request → Prop where
  | plain (request : Request) (concerns : request.concernsStore = true) :
      Request.StoreOnly request
  | register (id : ListenerId) (listener : Listener)
      (reactions : ∀ change, Reaction.StoreOnly (listener change)) :
      Request.StoreOnly (.register id listener)

/-- A reaction that makes requests to the store and no others. -/
inductive Reaction.StoreOnly : Reaction Request → Prop where
  | returns : Reaction.StoreOnly .returns
  | raises (r : Raised) : Reaction.StoreOnly (.raises r)
  | does (request : Request) (next : Outcome → Reaction Request) (first : request.StoreOnly)
      (rest : ∀ outcome, Reaction.StoreOnly (next outcome)) :
      Reaction.StoreOnly (.does request next)

end

/-- All listeners of a host act on the store only. -/
def Host.Private (h : Host) : Prop :=
  ∀ e ∈ h.listeners, ∀ change, (e.2 change).StoreOnly

theorem Host.Private.lookup {h : Host} (priv : h.Private) {id : ListenerId} {listener : Listener}
    (found : h.listeners.lookup id = some listener) (change : Change) :
    (listener change).StoreOnly := by
  obtain ⟨before, after, split, _⟩ := List.lookup_eq_some_iff.mp found
  refine priv (id, listener) ?_ change
  rw [split]
  exact List.mem_append_right _ List.mem_cons_self

/-! ## The part of a host that concerns the store -/

namespace Host

/-- A host with the same store, listeners and level, and nothing else. -/
def bare (h : Host) : Host :=
  { ofStore h.store with level := h.level, listeners := h.listeners }

/-- A host with the store and the listeners of another one, whose journal it takes in. -/
def overlay (h b : Host) : Host :=
  { h with store := b.store, listeners := b.listeners, journal := b.journal ++ h.journal }

@[simp] theorem bare_bare (h : Host) : h.bare.bare = h.bare := rfl

theorem bare_overlay {h b : Host} (level : b.level = h.level) : (h.overlay b).bare = b.bare := by
  unfold bare overlay
  rw [level]

theorem overlay_overlay (h b c : Host) : (h.overlay b).overlay c = h.overlay (b.overlay c) := by
  unfold overlay
  rw [List.append_assoc]

end Host

/-- What the act does to a host is what it does to the part of it that concerns the store. -/
structure Act.OnStore {α : Type} (act : Act α) : Prop where
  same : ∀ h : Host, h.Private →
    act h = (act h.bare).map fun p => (p.1, h.overlay p.2)
  keeps : ∀ (h : Host) (out : Except Raised α) (b : Host), h.Private →
    act h.bare = some (out, b) → b.Private
  quiet : ∀ (h : Host) (out : Except Raised α) (b : Host), h.Private →
    act h.bare = some (out, b) → ∀ e ∈ b.journal, e.run? = none

namespace Act.OnStore

variable {α β : Type}

theorem level_eq {x : Act α} (hx : OnStore x) {h b : Host} {out : Except Raised α}
    (priv : h.Private) (e : x h.bare = some (out, b)) : b.level = h.level := by
  have fixed := hx.same h.bare priv
  rw [Host.bare_bare, e] at fixed
  have same : b = h.bare.overlay b := congrArg Prod.snd (Option.some.inj fixed)
  rw [same]
  rfl

/-- An act that changes nothing and decides by what concerns the store. -/
theorem of_const {x : Act α} (out : Host → Except Raised α) (same : ∀ h, x h = some (out h, h))
    (alike : ∀ h : Host, out h = out h.bare) : OnStore x := by
  refine ⟨?_, ?_, ?_⟩
  · intro h _
    rw [same, same, alike]
    rfl
  · intro h o b priv e
    rw [same] at e
    cases e
    exact priv
  · intro h o b _ e
    rw [same] at e
    cases e
    rintro entry ⟨⟩

protected theorem pure (a : α) : OnStore (pure a : Act α) :=
  of_const (fun _ => .ok a) (fun _ => rfl) fun _ => rfl

protected theorem throw (r : Raised) : OnStore (throw r : Act α) :=
  of_const (fun _ => .error r) (fun _ => rfl) fun _ => rfl

protected theorem fail (fault : Fault) : OnStore (fail fault : Act α) := OnStore.throw _

protected theorem ofExcept (e : Except Fault α) : OnStore (ofExcept e) := by
  cases e with
  | ok a => exact OnStore.pure a
  | error fault => exact OnStore.fail fault

protected theorem bind {x : Act α} {f : α → Act β} (hx : OnStore x) (hf : ∀ a, OnStore (f a)) :
    OnStore (x >>= f) := by
  have course (h : Host) (priv : h.Private) (out : Except Raised β) (c : Host)
      (e : (x >>= f) h.bare = some (out, c)) :
      c.Private ∧ ∀ entry ∈ c.journal, entry.run? = none := by
    obtain ⟨r, ex, rfl⟩ | ⟨a, b, ex, ef⟩ := bind_eq_some e
    · exact ⟨hx.keeps h _ c priv ex, hx.quiet h _ c priv ex⟩
    · have privb := hx.keeps h _ b priv ex
      have fixed := (hf a).same b privb
      rw [ef] at fixed
      obtain ⟨⟨out', d⟩, ed, same⟩ := Option.map_eq_some_iff.mp fixed.symm
      cases same
      refine ⟨(hf a).keeps b _ d privb ed, ?_⟩
      intro entry member
      rcases List.mem_append.mp member with later | earlier
      · exact (hf a).quiet b _ d privb ed entry later
      · exact hx.quiet h _ b priv ex entry earlier
  refine ⟨?_, ?_, ?_⟩
  · intro h priv
    cases ex : x h.bare with
    | none =>
      rw [bind_of_none ex, bind_of_none (by rw [hx.same h priv, ex]; rfl)]
      rfl
    | some p =>
      obtain ⟨outcome, b⟩ := p
      have eh : x h = some (outcome, h.overlay b) := by
        rw [hx.same h priv, ex]
        rfl
      cases outcome with
      | error r =>
        rw [bind_of_error ex, bind_of_error eh]
        rfl
      | ok a =>
        have privb := hx.keeps h _ b priv ex
        have level := hx.level_eq priv ex
        rw [bind_of_ok ex, bind_of_ok eh, (hf a).same b privb, (hf a).same (h.overlay b) privb,
          Host.bare_overlay level, Option.map_map]
        congr 1
        funext p
        exact congrArg (Prod.mk p.1) (Host.overlay_overlay h b p.2)
  · exact fun h out c priv e => (course h priv out c e).1
  · exact fun h out c priv e => (course h priv out c e).2

/-- An act that decides by what concerns the store. -/
theorem of_get {f : Host → Act α} (alike : ∀ h, f h = f h.bare)
    (hf : ∀ h : Host, h.Private → OnStore (f h)) : OnStore (get >>= f) := by
  refine ⟨?_, ?_, ?_⟩
  · intro h priv
    rw [get_bind_apply, get_bind_apply, alike h]
    exact (hf h.bare priv).same h priv
  · intro h out b priv e
    exact (hf h.bare priv).keeps h out b priv e
  · intro h out b priv e
    exact (hf h.bare priv).quiet h out b priv e

/-- An act that changes nothing but what concerns the store. -/
theorem of_modify {f : Host → Host} (same : ∀ h, f h = h.overlay (f h.bare))
    (keeps : ∀ h : Host, h.Private → (f h.bare).Private)
    (quiet : ∀ h : Host, ∀ e ∈ (f h.bare).journal, e.run? = none) :
    OnStore (modify f : Act Unit) := by
  refine ⟨?_, ?_, ?_⟩
  · intro h _
    rw [modify_apply, modify_apply, same h]
    rfl
  · rintro h out b priv ⟨⟩
    exact keeps h priv
  · rintro h out b _ ⟨⟩
    exact quiet h

protected theorem record {e : Entry} (plain : e.run? = none) : OnStore (record e) := by
  refine of_modify (fun _ => rfl) (fun _ priv => priv) ?_
  intro h entry member
  cases List.mem_singleton.mp member
  exact plain

protected theorem setStore (store : Store) (write : Option Change) :
    OnStore (setStore store write) := by
  refine of_modify (fun _ => rfl) (fun _ priv => priv) ?_
  intro h entry member
  cases List.mem_singleton.mp member
  rfl

protected theorem say (r : Record) : OnStore (say r) := by
  refine of_get (fun _ => rfl) fun h _ => ?_
  split
  · exact OnStore.record rfl
  · exact OnStore.pure _

protected theorem ask (f : Store → Except Fault α) : OnStore (ask f) :=
  of_get (fun _ => rfl) fun _ _ => OnStore.ofExcept _

protected theorem attempt {x : Act α} (hx : OnStore x) : OnStore (attempt x) := by
  refine ⟨?_, ?_, ?_⟩
  · intro h priv
    rw [attempt_apply, attempt_apply, hx.same h priv, Option.map_map, Option.map_map]
    rfl
  · intro h out b priv e
    obtain ⟨inner, _, ex⟩ := attempt_eq_some e
    exact hx.keeps h inner b priv ex
  · intro h out b priv e
    obtain ⟨inner, _, ex⟩ := attempt_eq_some e
    exact hx.quiet h inner b priv ex

end Act.OnStore

open Act

/-! ## The acts of the store and of bridges -/

/-- Every response of a listener concerns the store alone. -/
def Response.OnStore (respond : Response) : Prop := ∀ id change, (respond id change).OnStore

theorem Act.Composed.onStore {Deed : (α : Type) → Act α → Prop} {α : Type} {x : Act α}
    (deeds : ∀ {β : Type} {y : Act β}, Deed β y → y.OnStore) (composed : x.Composed Deed) :
    x.OnStore := by
  induction composed with
  | deed done => exact deeds done
  | pure a => exact OnStore.pure a
  | bind _ _ first next => exact OnStore.bind first next
  | attempt _ tried => exact OnStore.attempt tried

section Deeds

variable {respond : Response} {α : Type} {x : Act α}

theorem Store.Deed.onStore (hr : respond.OnStore) (done : Store.Deed respond α x) :
    x.OnStore := by
  cases done with
  | asks f => exact OnStore.ask f
  | becomes store write => exact OnStore.setStore store write
  | logs r => exact OnStore.say r
  | notifies id change => exact OnStore.record rfl
  | cuts id change => exact OnStore.record rfl
  | hears id change => exact hr id change
  | refuses r => exact OnStore.throw r

theorem Bridge.Deed.onStore (hr : respond.OnStore) (done : Bridge.Deed respond α x) :
    x.OnStore := by
  cases done with
  | asks f => exact OnStore.ask f
  | writes option value =>
    exact (setOption_composed respond option value).onStore (Store.Deed.onStore hr)
  | logs r => exact OnStore.say r
  | refuses r => exact OnStore.throw r

theorem Act.call_onStore (hr : respond.OnStore) (attached : Bool) (a : Accessor)
    (args : List Value) (kwargs : Entries) :
    (Bridge.call (storeAccess respond) attached a args kwargs).OnStore :=
  (Bridge.call_composed respond attached a args kwargs).onStore (Bridge.Deed.onStore hr)

end Deeds

/-! ## Requests and responses -/

theorem Reaction.carryOut_onStore {perform : Request → Act Reply}
    (hp : ∀ request : Request, request.StoreOnly → (perform request).OnStore)
    {reaction : Reaction Request} (storeOnly : reaction.StoreOnly) :
    (reaction.carryOut perform).OnStore := by
  induction reaction with
  | returns => exact OnStore.pure _
  | raises r => exact OnStore.throw r
  | does request next ih =>
    cases storeOnly with
    | does _ _ first rest =>
      refine OnStore.bind (OnStore.attempt ?_) fun outcome => ih outcome (rest outcome)
      exact OnStore.bind (hp request first) fun _ => OnStore.pure _

namespace Session

variable {respond : Response}

theorem register_onStore (id : ListenerId) {listener : Listener}
    (reactions : ∀ change, (listener change).StoreOnly) : (register id listener).OnStore := by
  have registered : OnStore (do setStore ((← get).store.register id) none) :=
    OnStore.of_get (fun _ => rfl) fun _ _ => OnStore.setStore _ _
  refine OnStore.of_get (fun _ => rfl) fun h _ => ?_
  dsimp only
  split
  · refine OnStore.bind ?_ fun _ => registered
    refine OnStore.of_modify (fun _ => rfl) ?_ ?_
    · intro h priv e member change
      rcases List.mem_append.mp member with old | new
      · exact priv e old change
      · rw [List.mem_singleton.mp new]
        exact reactions change
    · rintro h e ⟨⟩
  · exact registered

theorem unit_onStore {act : Act Unit} (ha : act.OnStore) : (unit act).OnStore :=
  OnStore.bind ha fun _ => OnStore.pure _

theorem replied_onStore {α : Type} {act : Act α} {f : α → Reply} (ha : act.OnStore) :
    OnStore (do return f (← act)) :=
  OnStore.bind ha fun _ => OnStore.pure _

theorem perform_onStore (hr : respond.OnStore) {request : Request}
    (storeOnly : request.StoreOnly) : (perform respond request).OnStore := by
  cases storeOnly with
  | register id listener reactions => exact unit_onStore (register_onStore id reactions)
  | plain _ concerns =>
    cases request with
    | start => exact unit_onStore ((startStore_composed respond).onStore (Store.Deed.onStore hr))
    | close => exact unit_onStore ((closeStore_composed respond).onStore (Store.Deed.onStore hr))
    | stage => exact OnStore.of_get (fun _ => rfl) fun _ _ => OnStore.pure _
    | optionNames => exact OnStore.pure _
    | get option => exact replied_onStore (OnStore.ask _)
    | set option v =>
      exact unit_onStore ((setOption_composed respond option v).onStore (Store.Deed.onStore hr))
    | admits option v => exact replied_onStore (OnStore.ask _)
    | classNames => exact replied_onStore (OnStore.ask _)
    | classChars name => exact replied_onStore (OnStore.ask _)
    | pattern => exact replied_onStore (OnStore.ask _)
    | find text => exact replied_onStore (OnStore.ask _)
    | unregister id =>
      exact unit_onStore (OnStore.bind (OnStore.ask _) fun _ => OnStore.setStore _ _)
    | _ => cases concerns

/-- A listener that acts on the store only responds with an act that concerns the store alone. -/
theorem respond_onStore (depth : Nat) : (Session.respond depth).OnStore := by
  induction depth with
  | zero => exact fun id change => ⟨fun _ _ => rfl, fun _ _ _ _ e => (by cases e),
      fun _ _ _ _ e => (by cases e)⟩
  | succ depth ih =>
    intro id change
    refine OnStore.of_get (fun _ => rfl) fun h priv => ?_
    cases found : h.listeners.lookup id with
    | none => exact OnStore.pure _
    | some listener =>
      exact Reaction.carryOut_onStore (fun request => perform_onStore ih)
        (priv.lookup found change)

end Session

end OptionHost
