import OptionHost.Proofs.FailedRequests

/-!
# What a call of a bridge can fail of

A bridge knows nothing of evaluations. Whatever a call of it fails of, it is not that an evaluation
is over; only the accessors of an evaluation fail of that.
-/

namespace OptionHost

/-- The fault of a call whose evaluation is over. -/
def Fault.isLate : Fault → Bool
  | .hostState (.abandoned _) => true
  | _ => false

theorem Fault.isLate_formed {fault : Fault} (timely : fault.isLate = false) :
    fault.formed.isLate = false := by
  unfold formed
  split
  · exact timely
  · rfl

section

variable {α β : Type}

/-- A result that does not fail of being late. -/
def Timely (e : Except Fault α) : Prop := ∀ fault, e = .error fault → fault.isLate = false

namespace Timely

protected theorem ok (a : α) : Timely (.ok a) := by
  rintro fault ⟨⟩

protected theorem error {fault : Fault} (timely : fault.isLate = false) :
    Timely (.error fault : Except Fault α) := by
  rintro _ ⟨⟩
  exact timely

protected theorem bind {x : Except Fault α} {f : α → Except Fault β} (hx : Timely x)
    (hf : ∀ a, Timely (f a)) : Timely (x >>= f) := by
  cases x with
  | ok a => exact hf a
  | error fault => exact Timely.error (hx fault rfl)

protected theorem foldlM {f : β → α → Except Fault β} (hf : ∀ b a, Timely (f b a)) (as : List α)
    (b : β) : Timely (as.foldlM f b) := by
  induction as generalizing b with
  | nil => exact Timely.ok b
  | cons a as ih => exact Timely.bind (hf b a) ih

protected theorem mapM {f : α → Except Fault β} (hf : ∀ a, Timely (f a)) (as : List α) :
    Timely (as.mapM f) := by
  induction as with
  | nil => exact Timely.ok []
  | cons a as ih =>
    rw [List.mapM_cons]
    exact Timely.bind (hf a) fun _ => Timely.bind ih fun _ => Timely.ok _

end Timely

end

/-! ## Arguments -/

theorem Signature.bind_timely (s : Signature) (args : List Value) (kwargs : Entries) :
    Timely (s.bind args kwargs) := by
  have named (bound : List (String × Value)) (key value : Value) :
      Timely (s.bindNamed bound key value) := by
    unfold bindNamed
    split
    · split
      · exact Timely.error rfl
      · split
        · exact Timely.ok _
        · exact Timely.error rfl
    · exact Timely.error rfl
  unfold bind
  dsimp only
  split
  · exact Timely.error rfl
  · refine Timely.bind (Timely.foldlM (fun bound e => named bound e.1 e.2) kwargs _) fun bound => ?_
    split
    · exact Timely.error rfl
    · split
      · exact Timely.ok _
      · exact Timely.error rfl

theorem Accessor.argument_timely (a : Accessor) (args : List Value) (kwargs : Entries) :
    Timely (a.argument args kwargs) :=
  Timely.bind (a.signature.bind_timely _ kwargs) fun _ => Timely.ok _

/-! ## The store -/

theorem OptionName.ofValue_timely (v : Value) : Timely (ofValue v) := by
  have unknown_timely (v : Value) : Timely (.error (unknown v) : Except Fault OptionName) := by
    refine Timely.error ?_
    unfold unknown
    split
    · rfl
    · rfl
  unfold ofValue
  split
  · exact Timely.ok _
  · exact Timely.ok _
  · exact Timely.ok _
  · exact unknown_timely _
  · split
    · exact Timely.error rfl
    · exact unknown_timely _

theorem Pattern.ofParts_timely (parts : List Value) : Timely (ofParts parts) := by
  have chars (v : Value) : Timely (partChars v) := by
    unfold partChars
    split
    · exact Timely.ok _
    · exact Timely.ok _
    · exact Timely.error rfl
  refine Timely.bind (Timely.mapM chars parts) fun texts => ?_
  split
  · exact Timely.error rfl
  · dsimp only
    split
    · exact Timely.error rfl
    · exact Timely.ok _

theorem Pattern.ofClass_timely (v : Value) : Timely (ofClass v) := by
  cases v with
  | text s => exact Timely.ok _
  | list parts => exact ofParts_timely parts
  | tuple parts => exact ofParts_timely parts
  | set parts => exact ofParts_timely parts
  | dict entries => exact ofParts_timely _
  | bytes octets => exact ofParts_timely _
  | _ => exact Timely.error rfl

namespace Store

variable (s : Store) (option value : Value)

theorem require_timely : Timely (s.require option) := by
  unfold require
  split
  · exact Timely.ok _
  · exact Timely.error rfl

theorem get_timely : Timely (s.get option) :=
  Timely.bind (s.require_timely option) fun _ =>
    Timely.bind (OptionName.ofValue_timely option) fun _ => Timely.ok _

theorem admits_timely : Timely (s.admits option value) := by
  refine Timely.bind (s.require_timely option) fun _ => ?_
  refine Timely.bind (OptionName.ofValue_timely option) fun name => ?_
  split
  · exact Timely.ok _
  · exact Timely.ok _

theorem write_timely : Timely (s.write option value) := by
  refine Timely.bind (s.require_timely option) fun ready => ?_
  refine Timely.bind (s.admits_timely option value) fun admitted => ?_
  dsimp only
  split
  · exact Timely.error (Fault.isLate_formed rfl)
  · refine Timely.bind (OptionName.ofValue_timely option) fun name => ?_
    split
    · exact Timely.bind (Pattern.ofClass_timely _) fun _ => Timely.ok _
    · exact Timely.ok _

end Store

/-! ## Bridges -/

namespace Act

variable {α β : Type}

/-- An act that does not fail of being late. -/
def Timely (act : Act α) : Prop :=
  ∀ ⦃h r h'⦄, act h = some (.error r, h') → r.fault.isLate = false

namespace Timely

theorem of_settles {x : Act α} (hx : Settles x) : Timely x := by
  intro h r h' e
  obtain ⟨_, impossible⟩ := hx e
  cases impossible

protected theorem throw {r : Raised} (timely : r.fault.isLate = false) :
    Timely (throw r : Act α) := by
  rintro h _ h' ⟨⟩
  exact timely

protected theorem ask {f : Store → Except Fault α} (hf : ∀ s, OptionHost.Timely (f s)) :
    Timely (ask f) := by
  intro h r h' e
  rw [ask_apply] at e
  cases asked : f h.store with
  | ok a =>
    rw [asked] at e
    cases e
  | error fault =>
    rw [asked] at e
    cases e
    exact hf h.store fault asked

protected theorem bind {x : Act α} {f : α → Act β} (hx : Timely x) (hf : ∀ a, Timely (f a)) :
    Timely (x >>= f) := by
  intro h r h' e
  obtain ⟨_, failed, same⟩ | ⟨a, h₁, _, went⟩ := bind_eq_some e
  · cases same
    exact hx failed
  · exact hf a went

protected theorem tryCatch {x : Act α} {handle : Raised → Act α} (hx : Timely x)
    (hh : ∀ r, r.fault.isLate = false → Timely (handle r)) : Timely (tryCatch x handle) := by
  intro h r h' e
  rw [tryCatch_apply] at e
  obtain ⟨⟨outcome, h₁⟩, came, handled⟩ := Option.bind_eq_some_iff.mp e
  cases outcome with
  | ok a => cases handled
  | error failure => exact hh failure (hx came) handled

end Timely

variable {respond : Response}

theorem setOption_timely (option value : Value) : (setOption respond option value).Timely := by
  intro h r h' e
  cases written : h.store.write option value with
  | error fault =>
    rw [setOption_of_refused written] at e
    cases e
    exact h.store.write_timely option value fault written
  | ok p =>
    obtain impossible | ⟨same, -⟩ := setOption_of_written written e
    · cases impossible
    · cases same
      rfl

theorem require_timely (attached : Bool) (o : OptionName) :
    (Bridge.require attached o : Act Unit).Timely := by
  cases attached with
  | true => exact Timely.of_settles (Settles.pure _)
  | false => exact Timely.throw rfl

theorem set_timely (attached : Bool) (o : OptionName) (v : Value) :
    (Bridge.set (storeAccess respond) attached o v).Timely := by
  have refused {f : PUnit → Act PUnit} (record : Record) (reason : String) : Timely (do
      say record
      let done ← Bridge.refuse (Bridge.rejection o v reason)
      f done) := by
    refine Timely.bind (Timely.of_settles (Settles.say _)) fun _ => ?_
    rintro h _ h' ⟨⟩
    exact Fault.isLate_formed rfl
  have written : Timely (do
      try (storeAccess respond).write o v
      catch r =>
        if r.fault.isWrongValue then throw (Bridge.reported o v r) else throw r
      (storeAccess respond).say (Bridge.setRecord o v)) := by
    refine Timely.bind ?_ fun _ => Timely.of_settles (Settles.say _)
    refine Timely.tryCatch (setOption_timely _ _) fun r timely => ?_
    split
    · refine Timely.throw ?_
      unfold Bridge.reported
      split
      · exact Fault.isLate_formed rfl
      · rfl
    · exact Timely.throw timely
  unfold Bridge.set
  refine Timely.bind (require_timely attached o) fun _ => ?_
  dsimp only
  split
  · exact refused _ _
  · split
    · refine Timely.bind (Timely.ask fun s => s.admits_timely (.text o.name) v) fun admitted => ?_
      split
      · exact refused _ _
      · exact written
    · exact written

/-- No call of a bridge fails since an evaluation is over. -/
theorem access_timely (bridge : Nat) (a : Accessor) (args : List Value) (kwargs : Entries) :
    (access respond bridge a args kwargs).Timely := by
  unfold access Bridge.call
  refine Timely.bind (Timely.of_settles ?_) fun attached => ?_
  · rintro h out h' ⟨⟩
    exact ⟨_, rfl⟩
  cases given : a.argument args kwargs with
  | error fault => exact Timely.throw (a.argument_timely args kwargs fault given)
  | ok v =>
    cases a with
    | getter o =>
      refine Timely.bind (require_timely attached o) fun _ => ?_
      refine Timely.bind (Timely.ask fun s => s.get_timely (.text o.name)) fun held => ?_
      split
      · exact Timely.of_settles (Settles.pure _)
      · exact Timely.throw rfl
    | setter o =>
      exact Timely.bind (set_timely attached o v) fun _ => Timely.of_settles (Settles.pure _)

end Act

end OptionHost
