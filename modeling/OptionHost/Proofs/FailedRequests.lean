import OptionHost.Proofs.Lockstep
import OptionHost.Proofs.Notification

/-!
# Requests that fail

A request to the store or to a bridge fails before it has changed anything: whatever may be refused
is refused first, and all that is left of a failure is what was written about it. There is one
exception. A write that was made stands whatever the listeners make of it, but it ends with a
failure if the failure of a listener cannot be written about.
-/

namespace OptionHost

open Act

/-- The second host differs from the first one in nothing but records that were written since. -/
def Host.Untouched (h h' : Host) : Prop :=
  ∃ records : List Record, h' = { h with journal := records.map .logged ++ h.journal }

namespace Host.Untouched

variable {h h₁ h₂ : Host}

theorem refl (h : Host) : h.Untouched h := ⟨[], rfl⟩

theorem trans (first : h.Untouched h₁) (second : h₁.Untouched h₂) : h.Untouched h₂ := by
  obtain ⟨earlier, rfl⟩ := first
  obtain ⟨later, rfl⟩ := second
  exact ⟨later ++ earlier, by simp⟩

end Host.Untouched

/-- The store took a write, and the telling of the change broke off. -/
def Host.Botched (respond : Response) (h h' : Host) : Prop :=
  ∃ option value change t, h.store.write option value = .ok (change, t) ∧
    BrokeOff respond change h'

theorem Host.Untouched.botched {respond : Response} {h h₁ h₂ : Host} (first : h.Untouched h₁)
    (second : h₁.Botched respond h₂) : h.Botched respond h₂ := by
  obtain ⟨records, rfl⟩ := first
  exact second

namespace Act

variable {α β : Type}

def Quiet (act : Act α) : Prop := ∀ ⦃h out h'⦄, act h = some (out, h') → h.Untouched h'

/-- Where the act fails it has written records at most, or botched a write. -/
def Cautious (respond : Response) (act : Act α) : Prop :=
  ∀ ⦃h r h'⦄, act h = some (.error r, h') → h.Untouched h' ∨ h.Botched respond h'

variable {respond : Response}

namespace Quiet

protected theorem pure (a : α) : Quiet (pure a : Act α) := by
  rintro h out h' ⟨⟩
  exact .refl h

protected theorem throw (r : Raised) : Quiet (throw r : Act α) := by
  rintro h out h' ⟨⟩
  exact .refl h

protected theorem fail (fault : Fault) : Quiet (fail fault : Act α) := Quiet.throw _

protected theorem ofExcept (e : Except Fault α) : Quiet (ofExcept e) := by
  cases e with
  | ok a => exact Quiet.pure a
  | error fault => exact Quiet.fail fault

protected theorem bind {x : Act α} {f : α → Act β} (hx : Quiet x) (hf : ∀ a, Quiet (f a)) :
    Quiet (x >>= f) := by
  intro h out h' e
  obtain ⟨r, ex, rfl⟩ | ⟨a, h₁, ex, ef⟩ := bind_eq_some e
  · exact hx ex
  · exact (hx ex).trans (hf a ef)

protected theorem get : Quiet (get : Act Host) := by
  rintro h out h' ⟨⟩
  exact .refl h

protected theorem ask (f : Store → Except Fault α) : Quiet (ask f) :=
  Quiet.bind Quiet.get fun _ => Quiet.ofExcept _

protected theorem say (r : Record) : Quiet (say r) := by
  intro h out h' e
  rw [say_apply] at e
  cases e
  unfold sayEntries
  split
  · exact ⟨[r], rfl⟩
  · exact .refl h

theorem cautious {x : Act α} (hx : Quiet x) : Cautious respond x := fun _ _ _ e => .inl (hx e)

end Quiet

namespace Cautious

theorem of_settles {x : Act α} (hx : Settles x) : Cautious respond x := by
  intro h r h' e
  obtain ⟨_, impossible⟩ := hx e
  cases impossible

/-- What is looked at first changes nothing, so what fails then may still be cautious, -/
protected theorem bind {x : Act α} {f : α → Act β} (hx : Quiet x)
    (hf : ∀ a, Cautious respond (f a)) : Cautious respond (x >>= f) := by
  intro h r h' e
  obtain ⟨_, ex, -⟩ | ⟨a, h₁, ex, ef⟩ := bind_eq_some e
  · exact .inl (hx ex)
  · exact (hf a ef).imp (hx ex).trans (hx ex).botched

/-- and behind a change nothing may fail. -/
theorem bind_settles {x : Act α} {f : α → Act β} (hx : Cautious respond x)
    (hf : ∀ a, Settles (f a)) : Cautious respond (x >>= f) := by
  intro h r h' e
  obtain ⟨_, ex, -⟩ | ⟨a, h₁, ex, ef⟩ := bind_eq_some e
  · exact hx ex
  · obtain ⟨_, impossible⟩ := hf a ef
    cases impossible

/-- A failure that is raised again in other words is the same failure. -/
protected theorem tryCatch {x : Act α} {handle : Raised → Act α} (hx : Cautious respond x)
    (rethrows : ∀ r, ∃ r', handle r = throw r') : Cautious respond (tryCatch x handle) := by
  intro h r h' e
  rw [tryCatch_apply] at e
  obtain ⟨⟨outcome, h₁⟩, ex, e⟩ := Option.bind_eq_some_iff.mp e
  cases outcome with
  | ok a => cases e
  | error failure =>
    obtain ⟨r', same⟩ := rethrows failure
    change handle failure h₁ = _ at e
    rw [same] at e
    cases e
    exact hx ex

end Cautious

/-! ## What cannot fail -/

namespace Settles

protected theorem get : Settles (get : Act Host) := by
  rintro h out h' ⟨⟩
  exact ⟨h, rfl⟩

protected theorem modify (f : Host → Host) : Settles (modify f : Act Unit) := by
  rintro h out h' ⟨⟩
  exact ⟨(), rfl⟩

protected theorem setStore (store : Store) (write : Option Change) :
    Settles (setStore store write) := Settles.modify _

end Settles

/-! ## The store and its bridges -/

theorem setOption_cautious (option value : Value) :
    (setOption respond option value).Cautious respond := by
  intro h r h' e
  cases written : h.store.write option value with
  | error fault =>
    rw [setOption_of_refused written] at e
    cases e
    exact .inl (.refl h)
  | ok p =>
    obtain fine | ⟨-, brokeOff⟩ := setOption_of_written written e
    · cases fine
    · exact .inr ⟨option, value, p.1, p.2, written, brokeOff⟩

theorem startStore_cautious : startStore.Cautious respond := by
  refine Cautious.bind (Quiet.ask _) fun store => ?_
  refine Cautious.bind (Quiet.ofExcept _) fun ready => Cautious.of_settles ?_
  refine Settles.bind (Settles.setStore _ _) fun _ => ?_
  split
  · split
    · exact Settles.say _
    · exact Settles.pure _
  · exact Settles.pure _

theorem closeStore_cautious : closeStore.Cautious respond := by
  refine Cautious.bind (Quiet.ask _) fun store => Cautious.of_settles ?_
  refine Settles.bind (Settles.setStore _ _) fun _ => ?_
  split
  · exact Settles.say _
  · exact Settles.pure _

theorem openBridge_settles : openBridge.Settles := by
  rintro h out h' ⟨⟩
  exact ⟨_, rfl⟩

theorem detach_settles (bridge : Nat) : (detach bridge).Settles :=
  Settles.bind (Settles.modify _) fun _ => Settles.say _

theorem isAttached_quiet (bridge : Nat) : (isAttached bridge).Quiet :=
  Quiet.bind Quiet.get fun _ => Quiet.pure _

theorem require_quiet (attached : Bool) (o : OptionName) :
    (Bridge.require attached o : Act Unit).Quiet := by
  unfold Bridge.require
  split
  · exact Quiet.pure _
  · exact Quiet.fail _

theorem get_quiet (attached : Bool) (o : OptionName) :
    (Bridge.get (storeAccess respond) attached o).Quiet := by
  unfold Bridge.get
  refine Quiet.bind (require_quiet attached o) fun _ => ?_
  refine Quiet.bind (Quiet.ask (·.get (.text o.name))) fun v => ?_
  split
  · exact Quiet.pure _
  · exact Quiet.fail _

theorem set_cautious (attached : Bool) (o : OptionName) (v : Value) :
    (Bridge.set (storeAccess respond) attached o v).Cautious respond := by
  have written : Cautious respond (do
      try (storeAccess respond).write o v
      catch r =>
        if r.fault.isWrongValue then throw (Bridge.reported o v r) else throw r
      (storeAccess respond).say (Bridge.setRecord o v)) := by
    refine Cautious.bind_settles ?_ fun _ => Settles.say _
    refine Cautious.tryCatch (setOption_cautious _ _) fun r => ?_
    split
    · exact ⟨_, rfl⟩
    · exact ⟨_, rfl⟩
  unfold Bridge.set
  refine Cautious.bind (require_quiet attached o) fun _ => ?_
  dsimp only
  split
  · exact Quiet.cautious (Quiet.bind (Quiet.say _) fun _ => Quiet.fail _)
  · split
    · refine Cautious.bind (Quiet.ask (·.admits (.text o.name) v)) fun admitted => ?_
      split
      · exact Quiet.cautious (Quiet.bind (Quiet.say _) fun _ => Quiet.fail _)
      · exact written
    · exact written

theorem access_cautious (bridge : Nat) (a : Accessor) (args : List Value) (kwargs : Entries) :
    (access respond bridge a args kwargs).Cautious respond := by
  unfold access Bridge.call
  refine Cautious.bind (isAttached_quiet bridge) fun attached => ?_
  cases a.argument args kwargs with
  | error fault => exact Quiet.cautious (Quiet.fail _)
  | ok v =>
    cases a with
    | getter o => exact Quiet.cautious (get_quiet attached o)
    | setter o => exact Cautious.bind_settles (set_cautious attached o v) fun _ => Settles.pure _

end Act

/-! ## Requests -/

/-- A request to the store or to a bridge, which runs no script. -/
def Request.isDirect : Request → Bool
  | .start | .close | .stage | .optionNames | .get _ | .set .. | .admits .. | .classNames
  | .classChars _ | .pattern | .find _ | .register .. | .unregister _ | .openBridge | .access ..
  | .attached | .detach | .accessors | .managed => true
  | _ => false

namespace Session

variable {respond : Response}

theorem unit_cautious {act : Act Unit} (ha : act.Cautious respond) :
    (unit act).Cautious respond :=
  Cautious.bind_settles ha fun _ => Settles.pure _

theorem replied_quiet {α : Type} {act : Act α} {f : α → Reply} (ha : act.Quiet) :
    Act.Quiet (do return f (← act)) :=
  Quiet.bind ha fun _ => Quiet.pure _

theorem register_settles (id : ListenerId) (listener : Listener) :
    (register id listener).Settles := by
  have registered : Settles (do setStore ((← get).store.register id) none) :=
    Settles.bind Settles.get fun _ => Settles.setStore _ _
  refine Settles.bind Settles.get fun h => ?_
  dsimp only
  split
  · exact Settles.bind (Settles.modify _) fun _ => registered
  · exact registered

theorem currentBridge_quiet : currentBridge.Quiet :=
  Quiet.bind Quiet.get fun _ => Quiet.pure _

theorem access_cautious (name : String) (args : List Value) (kwargs : Entries) :
    (access respond name args kwargs).Cautious respond := by
  unfold access
  cases Accessor.ofName? name with
  | none => exact Quiet.cautious (Quiet.fail _)
  | some a =>
    exact Cautious.bind currentBridge_quiet fun bridge => Act.access_cautious bridge a args kwargs

theorem perform_cautious {request : Request} (direct : request.isDirect = true) :
    (perform respond request).Cautious respond := by
  cases request with
  | start => exact unit_cautious startStore_cautious
  | close => exact unit_cautious closeStore_cautious
  | stage => exact Quiet.cautious (replied_quiet Quiet.get)
  | optionNames => exact Quiet.cautious (Quiet.pure _)
  | get option => exact Quiet.cautious (replied_quiet (Quiet.ask _))
  | set option v => exact unit_cautious (setOption_cautious option v)
  | admits option v => exact Quiet.cautious (replied_quiet (Quiet.ask _))
  | classNames => exact Quiet.cautious (replied_quiet (Quiet.ask _))
  | classChars name => exact Quiet.cautious (replied_quiet (Quiet.ask _))
  | pattern => exact Quiet.cautious (replied_quiet (Quiet.ask _))
  | find text => exact Quiet.cautious (replied_quiet (Quiet.ask _))
  | register id listener => exact unit_cautious (Cautious.of_settles (register_settles id listener))
  | unregister id =>
    refine unit_cautious (Cautious.bind (Quiet.ask _) fun t => Cautious.of_settles ?_)
    exact Settles.setStore t none
  | openBridge => exact unit_cautious (Cautious.of_settles (Settles.map _ openBridge_settles))
  | access name args kwargs =>
    exact Cautious.bind_settles (access_cautious name args kwargs) fun _ => Settles.pure _
  | attached =>
    refine Quiet.cautious (Quiet.bind currentBridge_quiet fun bridge => ?_)
    exact replied_quiet (isAttached_quiet bridge)
  | detach =>
    refine unit_cautious (Cautious.bind currentBridge_quiet fun bridge => ?_)
    exact Cautious.of_settles (detach_settles bridge)
  | accessors => exact Quiet.cautious (Quiet.pure _)
  | managed => exact Quiet.cautious (Quiet.pure _)
  | _ => cases direct

end Session

/-! ## What later requests can tell -/

/-- Journals that grew by the same entries from given ones. -/
def GrownFrom (j₀ k₀ j k : List Entry) : Prop := ∃ entries, j = entries ++ j₀ ∧ k = entries ++ k₀

instance (j₀ k₀ : List Entry) : Cumulative (GrownFrom j₀ k₀) where
  cons e := by
    rintro _ _ ⟨entries, rfl, rfl⟩
    exact ⟨e :: entries, rfl, rfl⟩

namespace Session

variable {h h' : Host}

/-- What comes of requests: the replies, the entries that are made, and the host afterwards but for
its journal. -/
def observe (depth : Nat) (requests : List Request) (h : Host) :
    Option (List (Except Raised Reply) × List Entry × Host) :=
  (steps depth requests h).map fun p => (p.1, p.2.since h, { p.2 with journal := [] })

theorem observe_of_observed {depth : Nat} {requests : List Request} {j : List Entry}
    {seen : List (Except Raised Reply) × List Entry × Host}
    (e : observe depth requests h = some seen) :
    observe depth requests { h with journal := j } = some seen := by
  obtain ⟨⟨replies, h₁⟩, ran, rfl⟩ := Option.map_eq_some_iff.mp e
  have alike : Evaluation.Alike (fun _ => False) h.evaluations h.evaluations :=
    ⟨rfl, fun _ impossible => impossible.elim, fun _ => rfl, fun _ => rfl, fun _ _ => rfl⟩
  have inStep : h.InStep (GrownFrom h.journal j) (fun _ => False) { h with journal := j } :=
    .beside alike ⟨[], rfl, rfl⟩
  obtain ⟨_, ran', evaluations, entries, grown, grown'⟩ := steps_lockstep inStep ran
  have same := List.ext_getElem? fun id => evaluations.same id fun impossible => impossible
  have made : h₁.since h = entries.reverse := Host.since_eq (by simpa using grown)
  rw [observe, ran', Option.map_some, ← same, made]
  congr 3
  exact Host.since_eq (by simpa using grown')

theorem observe_of_untouched (untouched : h.Untouched h') (depth : Nat)
    (requests : List Request) : observe depth requests h' = observe depth requests h := by
  obtain ⟨records, rfl⟩ := untouched
  cases seen : observe depth requests h with
  | some p => exact observe_of_observed seen
  | none =>
    cases seen' : observe depth requests
        { h with journal := records.map .logged ++ h.journal } with
    | none => rfl
    | some p =>
      have back := observe_of_observed (j := h.journal) seen'
      cases back.symm.trans seen

/-- A table with an entry that no pattern can be built from. -/
def oddClasses : Entries := [(.text "ascii", .text " "), (.text "odd", .int 5)]

/-- The store is started, and a listener that always fails is registered. -/
def oddBeginning : List Request :=
  [.start, .register "failing" fun _ => .raises ⟨.foreign "RuntimeError" "heard", none⟩]

/-- A listener whose failures have no text is registered before another one. -/
def muteBeginning : List Request :=
  [.start, .register "mute" fun _ => .raises .mute, .register "behind" fun _ => .returns]

/-- The telling breaks off at the listener that comes first, and the one behind hears nothing. -/
theorem muteBeginning_cut :
    ∃ replies g t g',
      steps 2 muteBeginning (Host.ofStore ⟨.initial, oddClasses, .uninitialized, []⟩) =
          some (replies, g) ∧
        g.store.write (.text "wrap") (.bool false) =
          .ok (⟨.wrap, .bool true, .bool false⟩, t) ∧
        g.store.listeners = ["mute", "behind"] ∧
        setOption (Session.respond 2) (.text "wrap") (.bool false) g =
          some (.error Fault.unwritable, g') ∧
        g'.store.get (.text "wrap") = .ok (.bool false) ∧
        (g'.since g).filterMap Entry.event? = [("mute", ⟨.wrap, .bool true, .bool false⟩)] := by
  have heard : ∃ replies g change t h₁,
      steps 2 muteBeginning (Host.ofStore ⟨.initial, oddClasses, .uninitialized, []⟩) =
          some (replies, g) ∧
        g.store.write (.text "wrap") (.bool false) = .ok (change, t) ∧ change.isReal = true ∧
        g.store.listeners = ["mute", "behind"] ∧ change = ⟨.wrap, .bool true, .bool false⟩ ∧
        Session.respond 2 "mute" change { announced g t change with
          journal := .notified "mute" change :: (announced g t change).journal } =
            some (.error .mute, h₁) ∧
        h₁.store.get (.text "wrap") = .ok (.bool false) ∧
        ({ h₁ with journal := .cut "mute" change :: h₁.journal }.since g).filterMap Entry.event? =
          [("mute", ⟨.wrap, .bool true, .bool false⟩)] :=
    ⟨_, _, _, _, _, rfl, rfl, rfl, rfl, rfl, rfl, rfl, rfl⟩
  obtain ⟨replies, g, _, t, g₁, begun, written, real, listed, rfl, told, kept, events⟩ := heard
  have cut := setOption_of_textless written real listed told Raised.text?_mute
  exact ⟨replies, g, t, _, begun, written, listed, cut, kept, events⟩

end Session

end OptionHost
