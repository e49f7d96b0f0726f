import OptionHost.Proofs.Act

/-!
# What acts are composed of

Neither a bridge nor an engine touches a host by itself. A bridge asks the store, writes options
and says what it did; an engine notes things and calls host functions. Acts that carry out nothing
but such deeds, one after another, are composed of them, and a property of the deeds that lasts
from one act to the next is a property of the whole. So the code of bridges and engines is gone
through once, for all such properties; a script, by induction on its behaviour.
-/

namespace OptionHost

/-- An entry about no change of the store, no listener and no call of an accessor. -/
def Entry.isQuiet : Entry → Bool
  | .stored .. | .notified .. | .cut .. | .accessed .. => false
  | _ => true

/-- The act carries out such deeds and nothing else. -/
inductive Act.Composed (Deed : (α : Type) → Act α → Prop) : {α : Type} → Act α → Prop where
  | deed {α : Type} {x : Act α} (done : Deed α x) : Composed Deed x
  | pure {α : Type} (a : α) : Composed Deed (pure a : Act α)
  | bind {α β : Type} {x : Act α} {f : α → Act β} (first : Composed Deed x)
      (next : ∀ a, Composed Deed (f a)) : Composed Deed (x >>= f)
  | attempt {α : Type} {x : Act α} (tried : Composed Deed x) : Composed Deed (attempt x)

namespace Act.Composed

variable {Deed : (α : Type) → Act α → Prop} {α β : Type}

protected theorem map {x : Act α} (f : α → β) (first : Composed Deed x) :
    Composed Deed (f <$> x) := by
  rw [map_eq_pure_bind]
  exact .bind first fun _ => .pure _

protected theorem tryCatch {x : Act α} {handle : Raised → Act α} (tried : Composed Deed x)
    (handled : ∀ r, Composed Deed (handle r)) : Composed Deed (tryCatch x handle) := by
  rw [tryCatch_eq]
  refine .bind (.attempt tried) fun outcome => ?_
  cases outcome with
  | ok a => exact .pure a
  | error r => exact handled r

protected theorem ofExcept (refused : ∀ fault, Composed Deed (fail fault : Act α))
    (e : Except Fault α) : Composed Deed (ofExcept e) := by
  cases e with
  | ok a => exact .pure a
  | error fault => exact refused fault

protected theorem forM {f : α → Act PUnit} (each : ∀ a, Composed Deed (f a)) (as : List α) :
    Composed Deed (as.forM f) := by
  induction as with
  | nil => exact .pure _
  | cons a as ih => exact .bind (each a) fun _ => ih

end Act.Composed

open Act

/-! ## The store -/

/-- What the host does about its store. -/
inductive Store.Deed (respond : Response) : (α : Type) → Act α → Prop where
  | asks {α : Type} (f : Store → Except Fault α) : Deed respond α (ask f)
  | becomes (store : Store) (write : Option Change) : Deed respond Unit (setStore store write)
  | logs (r : Record) : Deed respond Unit (say r)
  | notifies (id : ListenerId) (change : Change) : Deed respond Unit (record (.notified id change))
  | cuts (id : ListenerId) (change : Change) : Deed respond Unit (record (.cut id change))
  | hears (id : ListenerId) (change : Change) : Deed respond Unit (respond id change)
  | refuses {α : Type} (r : Raised) : Deed respond α (throw r)

namespace Act

variable (respond : Response)

theorem startStore_composed : startStore.Composed (Store.Deed respond) := by
  refine .bind (.deed (.asks _)) fun store => ?_
  refine .bind (.ofExcept (fun _ => .deed (.refuses _)) _) fun ready => ?_
  refine .bind (.deed (.becomes _ _)) fun _ => ?_
  split
  · split
    · exact .deed (.logs _)
    · exact .pure _
  · exact .pure _

theorem closeStore_composed : closeStore.Composed (Store.Deed respond) := by
  refine .bind (.deed (.asks _)) fun store => ?_
  refine .bind (.deed (.becomes _ _)) fun _ => ?_
  split
  · exact .deed (.logs _)
  · exact .pure _

theorem tell_composed (change : Change) (id : ListenerId) :
    (tell respond change id).Composed (Store.Deed respond) := by
  refine .bind (.deed (.notifies id change)) fun _ => ?_
  refine .bind (.attempt (.deed (.hears id change))) fun outcome => ?_
  cases outcome with
  | ok _ => exact .pure _
  | error r =>
    dsimp only
    split
    · exact .deed (.logs _)
    · exact .bind (.deed (.cuts id change)) fun _ => .deed (.refuses _)

theorem setOption_composed (option value : Value) :
    (setOption respond option value).Composed (Store.Deed respond) := by
  refine .bind (.deed (.asks _)) fun store => ?_
  refine .bind (.ofExcept (fun _ => .deed (.refuses _)) _) fun p => ?_
  refine .bind (.deed (.becomes _ _)) fun _ => ?_
  refine .bind (.deed (.logs _)) fun _ => ?_
  split
  · exact .forM (tell_composed respond p.1) _
  · exact .pure _

end Act

/-! ## Bridges -/

/-- What a bridge does. -/
inductive Bridge.Deed (respond : Response) : (α : Type) → Act α → Prop where
  | asks {α : Type} (f : Store → Except Fault α) : Deed respond α (ask f)
  | writes (option value : Value) : Deed respond Unit (setOption respond option value)
  | logs (r : Record) : Deed respond Unit (say r)
  | refuses {α : Type} (r : Raised) : Deed respond α (throw r)

namespace Bridge

variable (respond : Response) (attached : Bool)

theorem require_composed (o : OptionName) :
    Act.Composed (Bridge.Deed respond) (require attached o) := by
  unfold require
  split
  · exact .pure _
  · exact .deed (.refuses _)

theorem get_composed (o : OptionName) :
    Act.Composed (Bridge.Deed respond) (get (storeAccess respond) attached o) := by
  unfold get
  refine .bind (require_composed respond attached o) fun _ => ?_
  refine .bind (.deed (.asks (·.get (.text o.name)))) fun v => ?_
  split
  · exact .pure _
  · exact .deed (.refuses _)

theorem set_composed (o : OptionName) (v : Value) :
    Act.Composed (Bridge.Deed respond) (set (storeAccess respond) attached o v) := by
  have written : Act.Composed (Bridge.Deed respond) (do
      try (storeAccess respond).write o v
      catch r =>
        if r.fault.isWrongValue then throw (reported o v r) else throw r
      (storeAccess respond).say (setRecord o v)) := by
    refine .bind (.tryCatch (.deed (.writes _ _)) fun r => ?_) fun _ => .deed (.logs _)
    split
    · exact .deed (.refuses _)
    · exact .deed (.refuses _)
  unfold set
  refine .bind (require_composed respond attached o) fun _ => ?_
  dsimp only
  split
  · exact .bind (.deed (.logs _)) fun _ => .deed (.refuses _)
  · split
    · refine .bind (.deed (.asks (·.admits (.text o.name) v))) fun admitted => ?_
      split
      · exact .bind (.deed (.logs _)) fun _ => .deed (.refuses _)
      · exact written
    · exact written

theorem call_composed (a : Accessor) (args : List Value) (kwargs : Entries) :
    Act.Composed (Bridge.Deed respond) (call (storeAccess respond) attached a args kwargs) := by
  unfold call
  cases a.argument args kwargs with
  | error fault => exact .deed (.refuses _)
  | ok v =>
    cases a with
    | getter o => exact get_composed respond attached o
    | setter o => exact .bind (set_composed respond attached o v) fun _ => .pure _

end Bridge

/-! ## Engines -/

namespace Site

variable (site : Site)

/-- What a host function does that a script calls. -/
inductive Service : (α : Type) → Act α → Prop where
  | logs (r : Record) : Service Unit (say r)
  | notes {e : Entry} (quiet : e.isQuiet = true) : Service Unit (record e)
  | accesses (run : Nat) (a : Accessor) (args : List Value) (kwargs : Entries) :
      Service Value (accessWithin site.respond run a args kwargs)
  | fails {α : Type} (r : Raised) : Service α (throw r)

/-- What an engine does. It looks into the result of every call that it makes, and so it does not
fail with a call. -/
inductive Deed : (α : Type) → Act α → Prop where
  | logs (r : Record) : Deed Unit (say r)
  | notes {e : Entry} (quiet : e.isQuiet = true) : Deed Unit (record e)
  | calls (f : HostFunction) (args : List Value) (kwargs : Entries) :
      Deed Outcome (attempt (site.invoke f args kwargs))

theorem output_composed {D : (α : Type) → Act α → Prop} (logs : ∀ r, D Unit (say r))
    (notes : ∀ {e : Entry}, e.isQuiet = true → D Unit (record e)) (speaker : Speaker)
    (text : String) : (site.output speaker text).Composed D := by
  unfold output
  refine .bind (.deed (logs _)) fun _ => ?_
  split
  · exact .deed (notes rfl)
  · exact .pure _

theorem invoke_composed (f : HostFunction) (args : List Value) (kwargs : Entries) :
    (site.invoke f args kwargs).Composed site.Service := by
  have failed {α : Type} (fault : Fault) : (fail fault : Act α).Composed site.Service :=
    .deed (.fails _)
  unfold invoke
  dsimp only
  split
  · rw [fail_bind]
    exact failed _
  · cases f with
    | echo => exact .pure _
    | constant v => exact .pure _
    | object => exact .pure _
    | fails r => exact .deed (.fails r)
    | forever => exact .pure _
    | accessor evaluation a => exact .deed (.accesses evaluation a args kwargs)
    | jsonEncode => exact .ofExcept failed _
    | jsonDecode => exact .ofExcept failed _
    | print =>
      dsimp only
      split
      · exact .bind (site.output_composed .logs .notes _ _) fun _ => .pure _
      · exact failed _

theorem callNoted_composed (name : String) (f : HostFunction) (awaited : Bool)
    (args : List Value) (kwargs : Entries) :
    (site.callNoted name f awaited args kwargs).Composed site.Deed := by
  have tried : (attempt (site.invokePlainly f awaited args kwargs)).Composed site.Deed := by
    unfold invokePlainly
    split
    · exact .attempt (.pure _)
    · exact .deed (.calls f args kwargs)
  exact .bind tried fun outcome => .bind (.deed (.notes rfl)) fun _ => .pure _

end Site

variable (site : Site)

namespace StandIn

theorem drive_composed (table : Table) (b : Behaviour) :
    (drive site table b).Composed site.Deed := by
  induction b with
  | returns v => exact .pure _
  | raises r => exact .pure _
  | calls name args kwargs next ih =>
    unfold drive
    split
    · exact .bind (site.callNoted_composed _ _ _ _ _) ih
    · exact ih _
  | prints text next ih => exact ih
  | blocks next ih => exact ih
  | strays => exact .pure _

theorem evaluate_composed (globals : Table) (source : Source) :
    (evaluate site globals source).Composed site.Deed := by
  unfold evaluate
  cases source with
  | unreadable message => exact .pure _
  | readable behaviour =>
    exact .bind (.deed (.notes rfl)) fun _ => drive_composed site globals behaviour

end StandIn

namespace Starlark

theorem drive_composed (table : Table) (yields : Bool) (b : Behaviour) :
    (drive site table yields b).Composed site.Deed := by
  induction b with
  | returns v => exact .pure _
  | raises r => exact .pure _
  | calls name args kwargs next ih =>
    unfold drive
    split
    · exact .bind (site.callNoted_composed _ _ _ _ _) ih
    · exact .pure _
  | prints text next ih => exact ih
  | blocks next ih =>
    unfold drive
    split
    · exact .pure _
    · exact ih
  | strays => exact .pure _

theorem conclude_composed (outcome : Outcome) : (conclude outcome).Composed site.Deed := by
  unfold conclude
  cases outcome with
  | ok v => exact .pure _
  | error r =>
    dsimp only
    split
    · exact .bind (.deed (.logs _)) fun _ => .pure _
    · exact .pure _

theorem begin_composed (globals : Table) (source : Source) (yields : Bool) :
    (begin site globals source yields).Composed site.Deed := by
  unfold begin
  cases source with
  | unreadable message => exact .pure _
  | readable behaviour =>
    dsimp only
    split
    · refine .bind (.deed (.notes rfl)) fun _ => ?_
      refine .bind (drive_composed site _ yields behaviour) fun progress => ?_
      cases progress with
      | ended outcome => exact .bind (conclude_composed site outcome) fun _ => .pure _
      | stalled rest => exact .pure _
    · exact .bind (conclude_composed site _) fun _ => .pure _

theorem evaluate_composed (globals : Table) (source : Source) :
    (evaluate site globals source).Composed site.Deed := by
  refine .bind (begin_composed site globals source false) fun progress => ?_
  cases progress with
  | ended outcome => exact .pure _
  | stalled rest => exact .pure _

theorem evaluateAwaited_composed (globals : Table) (source : Source) :
    (evaluateAwaited site globals source).Composed site.Deed := by
  refine .bind (begin_composed site globals source true) fun progress => ?_
  cases progress with
  | ended outcome => exact .pure _
  | stalled rest => exact .bind (.deed (.logs _)) fun _ => .pure _

theorem release_composed (globals : Table) (rest : Behaviour) :
    (release site globals rest).Composed site.Deed := by
  refine .bind (.deed (.notes rfl)) fun _ => ?_
  refine .bind (drive_composed site _ false rest) fun progress => ?_
  cases progress with
  | ended outcome => exact .map _ (conclude_composed site outcome)
  | stalled rest => exact .pure _

end Starlark

namespace Monty

theorem settle_composed (r : Raised) : (settle r).Composed site.Deed := by
  unfold settle
  split
  · exact .pure _
  · exact .pure _
  · exact .pure _
  · exact .pure _
  · dsimp only
    split
    · exact .bind (.deed (.logs _)) fun _ => .pure _
    · exact .pure _

theorem print_composed (text : String) : (print site text).Composed site.Deed := by
  unfold print
  dsimp only
  split
  · exact site.output_composed .logs .notes _ _
  · exact .pure _

theorem resume_composed (snapshot : Nat) (used : Bool) (given : Outcome) :
    (resume site snapshot used given).Composed site.Deed :=
  .deed (.notes rfl)

theorem answer_composed (table : Table) (snapshot : Nat) (name : String) (args : List Value)
    (kwargs : Entries) :
    (answer site table snapshot name args kwargs).Composed site.Deed := by
  unfold answer
  split
  · exact .pure _
  · rename_i f _ _ _
    refine .bind (.deed (.calls f args kwargs)) fun result => ?_
    refine .bind (resume_composed site snapshot false result) fun _ => ?_
    cases result with
    | ok v =>
      dsimp only
      split
      · exact .pure _
      · exact .bind (resume_composed site snapshot false _) fun _ => .pure _
    | error r => exact .pure _
  · exact .bind (resume_composed site snapshot false _) fun _ => .pure _

theorem drive_composed (table : Table) (b : Behaviour) :
    ∀ snapshots afterValue, (drive site table snapshots afterValue b).Composed site.Deed := by
  induction b with
  | returns v => exact fun _ _ => .pure _
  | raises r =>
    intro snapshots afterValue
    unfold drive
    split
    · refine .bind (resume_composed site snapshots true _) fun _ => ?_
      exact .bind (settle_composed site _) fun _ => .pure _
    · exact .bind (settle_composed site r) fun _ => .pure _
  | calls name args kwargs next ih =>
    intro snapshots afterValue
    unfold drive
    refine .bind (answer_composed site table _ name args kwargs) fun answered => ?_
    cases answered with
    | none => exact .pure _
    | some given => exact .bind (.deed (.notes rfl)) fun _ => ih given _ _
  | prints text next ih =>
    intro snapshots afterValue
    exact .bind (print_composed site text) fun _ => ih _ _
  | blocks next ih => exact fun _ _ => .pure _
  | strays => exact fun _ _ => .pure _

theorem evaluateAwaited_composed (globals : Table) (source : Source) :
    (evaluateAwaited site globals source).Composed site.Deed := by
  unfold evaluateAwaited
  cases source with
  | unreadable message => exact .pure _
  | readable behaviour =>
    refine .bind (.bind (.deed (.notes rfl)) fun _ => .deed (.notes rfl)) fun _ => ?_
    refine .bind (drive_composed site _ behaviour 0 false) fun progress => ?_
    cases progress with
    | ended outcome => exact .pure _
    | stalled rest => exact .bind (.deed (.logs _)) fun _ => .pure _

end Monty

/-- Whatever the engine and the script, the host sees nothing of a run but these deeds. -/
theorem Runner.runEngine_composed (i : Interpreter) (globals : Table) (job : Job) :
    (runEngine i site globals job).Composed site.Deed := by
  unfold runEngine
  cases i with
  | starlark =>
    dsimp only
    split
    · exact Starlark.evaluateAwaited_composed site globals _
    · exact .bind (Starlark.evaluate_composed site globals _) fun _ => .pure _
  | monty => exact .bind (Monty.evaluateAwaited_composed site globals _) fun _ => .pure _
  | standIn => exact .bind (StandIn.evaluate_composed site globals _) fun _ => .pure _

end OptionHost
