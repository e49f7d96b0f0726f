import Mathlib.Data.List.Chain
import OptionHost.Proofs.Requests
import OptionHost.Proofs.StoreStep

/-!
# The history of a store

The journal of a host holds every state that its store was put into, also those that a listener
saw while it was being told of a change. The states follow one another by single steps, so what a
step keeps is kept by every session, however deep the responses of its listeners nest.
-/

namespace OptionHost

open Act

/-- The option on whose behalf a request reads, writes or queries the store. -/
def Request.option? : Request → Option Value
  | .get option | .set option _ | .admits option _ => some option
  | .classNames | .classChars _ | .pattern | .find _ => some (.text OptionName.breakAt.name)
  | _ => none

/-! ## Stores that are not ready -/

namespace Store

theorem require_of_not_ready {s : Store} (idle : s.stage ≠ .ready) (option : Value) :
    s.require option = .error (.hostState (.notReady s.stage option)) := by
  unfold require stage at *
  cases condition : s.condition with
  | ready values pattern =>
    rw [condition] at idle
    exact absurd rfl idle
  | uninitialized => rfl
  | closed => rfl

theorem require_bind_of_not_ready {α : Type} {s : Store} (idle : s.stage ≠ .ready)
    (option : Value) (f : OptionValues × Pattern → Except Fault α) :
    (s.require option >>= f) = .error (.hostState (.notReady s.stage option)) := by
  rw [require_of_not_ready idle option]
  rfl

end Store

theorem Act.ask_bind_of_error {α β : Type} {ask? : Store → Except Fault α} {f : α → Act β}
    {h : Host} {fault : Fault} (e : ask? h.store = .error fault) :
    (ask ask? >>= f) h = some (.error ⟨fault, none⟩, h) := by
  refine bind_of_error ?_
  rw [ask_apply, e]
  rfl

/-- Before a store is ready and after it is closed, whatever concerns its options is refused, and
nobody is told of anything. -/
theorem Session.perform_of_not_ready {respond : Response} {h : Host} {request : Request}
    {option : Value} (idle : h.store.stage ≠ .ready) (concerned : request.option? = some option) :
    perform respond request h =
      some (.error ⟨.hostState (.notReady h.store.stage option), none⟩, h) := by
  have refused {α : Type} (option : Value) (f : OptionValues × Pattern → Except Fault α) :=
    Store.require_bind_of_not_ready idle option f
  cases request with
  | get asked =>
    cases concerned
    exact ask_bind_of_error (refused _ _)
  | set asked v =>
    cases concerned
    refine bind_of_error ?_
    unfold setOption
    rw [ask_pure_bind_apply, Store.write, refused, ofExcept_error, fail_bind_apply]
  | admits asked v =>
    cases concerned
    exact ask_bind_of_error (refused _ _)
  | classNames =>
    cases concerned
    exact ask_bind_of_error (refused _ _)
  | classChars name =>
    cases concerned
    exact ask_bind_of_error (refused _ _)
  | pattern =>
    cases concerned
    exact ask_bind_of_error (refused _ _)
  | find text =>
    cases concerned
    exact ask_bind_of_error (refused _ _)
  | _ => cases concerned

/-! ## Histories -/

theorem Host.history_record (h : Host) (e : Entry) :
    Host.history { h with journal := e :: h.journal } = h.history ++ e.store?.toList := by
  unfold Host.history
  rw [List.reverse_cons, List.filterMap_append]
  cases e <;> rfl

theorem Entry.store?_of_isPlain {e : Entry} (plain : e.isPlain = true) : e.store? = none := by
  cases e with
  | stored store write => cases plain
  | _ => rfl

structure Host.Accounts (store : Store) (h : Host) : Prop where
  chain : (store :: h.history).IsChain fun s t => ∃ write, s.Step write t
  current : h.history.getLastD store = h.store

theorem Host.accounts_ofStore (store : Store) : (Host.ofStore store).Accounts store :=
  ⟨.singleton store, rfl⟩

theorem Host.Accounts.of_same {store : Store} {h h' : Host} (accounts : h.Accounts store)
    (history : h'.history = h.history) (same : h'.store = h.store) : h'.Accounts store := by
  constructor
  · rw [history]
    exact accounts.chain
  · rw [history, same]
    exact accounts.current

theorem Host.Accounts.stored {store : Store} {h : Host} (accounts : h.Accounts store) {t : Store}
    {write : Option Change} (step : h.store.Step write t) :
    Host.Accounts store { h with store := t, journal := .stored t write :: h.journal } := by
  have history : Host.history { h with store := t, journal := .stored t write :: h.journal } =
      h.history ++ [t] :=
    Host.history_record { h with store := t } (.stored t write)
  constructor
  · rw [history, ← List.cons_append]
    refine accounts.chain.append (.singleton t) ?_
    intro s last next head
    rw [List.getLast?_cons, ← List.getLastD_eq_getLast?, accounts.current] at last
    cases last
    cases head
    exact ⟨write, step⟩
  · rw [history, List.getLastD_concat]

theorem Host.Move.accounts {store : Store} {h h' : Host} (move : h.Move h')
    (accounts : h.Accounts store) : h'.Accounts store := by
  cases move with
  | noted e plain =>
    refine accounts.of_same ?_ rfl
    rw [Host.history_record, Entry.store?_of_isPlain plain]
    exact List.append_nil _
  | stored step => exact accounts.stored step
  | accessed id a outcome opened =>
    refine accounts.of_same ?_ rfl
    refine (Host.history_record { h with evaluations := _ } _).trans ?_
    exact List.append_nil _
  | _ => exact accounts.of_same rfl rfl

theorem Host.Path.accounts {store : Store} {h h' : Host} (path : h.Path h')
    (accounts : h.Accounts store) : h'.Accounts store := by
  induction path with
  | refl => exact accounts
  | tail _ move ih => exact move.accounts ih

theorem Host.Accounts.follows {store : Store} {h : Host} (accounts : h.Accounts store) :
    (store :: h.history).IsChain fun s t => s.stage.Follows t.stage :=
  accounts.chain.imp fun _ _ ⟨_, step⟩ => step.follows

def Store.afterEntries (store : Store) (entries : List Entry) : Store :=
  (entries.filterMap Entry.store?).getLastD store

/-- A listener that is told of a change sees one of the states of the history. -/
theorem Host.sighting_mem {store : Store} {h : Host} {before after : List Entry} {e : Entry}
    (split : h.journal.reverse = before ++ e :: after) :
    store.afterEntries before ∈ store :: h.history := by
  have seen : store.afterEntries before ∈ store :: before.filterMap Entry.store? :=
    List.getLastD_mem_cons
  unfold Host.history
  rw [split, List.filterMap_append]
  rcases List.mem_cons.mp seen with first | later
  · rw [first]
    exact List.mem_cons_self
  · exact List.mem_cons_of_mem _ (List.mem_append_left _ later)

theorem Host.Accounts.sound {store : Store} {h : Host} {classes : Entries}
    (accounts : h.Accounts store) (textual : classes.Textual) (sound : store.Sound classes) :
    ∀ s ∈ store :: h.history, s.Sound classes :=
  accounts.chain.induction _ _ (fun _ _ ⟨_, step⟩ => step.sound textual) fun _ => sound

/-- A session on a store that was built from validated options. Its journal ends with the store
as it is. From each state of the store to the next the stage goes forward only, and every state is
sound, those included in which listeners were told of a change. A host whose store is in a stage
other than the ready one refuses whatever concerns the options, and is left as it was. -/
theorem Session.steps_store_sound {window : WindowOptions} {shared : SharedOptions}
    {classes : Entries} {store : Store} {depth : Nat} {requests : List Request}
    {replies : List (Except Raised Reply)} {h : Host} (textual : classes.Textual)
    (created : Store.create (.ofOptions window shared) classes = .ok store)
    (run : Session.steps depth requests (Host.ofStore store) = some (replies, h)) :
    h.history.getLastD store = h.store ∧
      ((store :: h.history).IsChain fun s t => s.stage.Follows t.stage) ∧
      (∀ s ∈ store :: h.history, s.Sound classes) ∧
      (∀ before after id change,
        h.journal.reverse = before ++ .notified id change :: after →
          (store.afterEntries before).Sound classes) ∧
      ∀ (respond : Response) (g : Host) (request : Request) (option : Value),
        g.store.stage ≠ .ready → request.option? = some option →
          perform respond request g =
            some (.error ⟨.hostState (.notReady g.store.stage option), none⟩, g) := by
  have accounts := (steps_path run).accounts (Host.accounts_ofStore store)
  have sound := accounts.sound textual (Store.sound_of_create created)
  refine ⟨accounts.current, accounts.follows, sound, ?_, ?_⟩
  · intro before after id change split
    exact sound _ (Host.sighting_mem split)
  · intro respond g request option idle concerned
    exact perform_of_not_ready idle concerned

/-- A listener that selects another class as soon as wrapping changes, closes the store when the
class has changed, and fails in the end. -/
def meddling (change : Change) : Reaction Request :=
  match change.option with
  | .breakAt => .does .close fun _ => .raises ⟨.foreign "RuntimeError" "closed", none⟩
  | _ =>
    .does (.set (.text "break_at") (.text "whitespace")) fun _ =>
      .raises ⟨.foreign "RuntimeError" "meddled", none⟩

theorem Session.steps_store_sound_meddling :
    ∃ store replies h,
      Store.create (.ofOptions ⟨true, false⟩ ⟨"ascii"⟩) builtinClasses = .ok store ∧
        steps 3 [.start, .register "meddler" meddling, .set (.text "wrap") (.bool false),
          .get (.text "wrap")] (Host.ofStore store) = some (replies, h) ∧
        h.store.stage = .closed ∧ ∀ s ∈ store :: h.history, s.Sound builtinClasses := by
  let store : Store := ⟨.initial, builtinClasses, .uninitialized, []⟩
  have created : Store.create (.ofOptions ⟨true, false⟩ ⟨"ascii"⟩) builtinClasses = .ok store :=
    rfl
  have ran : ((steps 3 [.start, .register "meddler" meddling,
      .set (.text "wrap") (.bool false), .get (.text "wrap")] (Host.ofStore store)).map
        fun p => p.2.store.stage) = some .closed := rfl
  obtain ⟨⟨replies, h⟩, run, closed⟩ := Option.map_eq_some_iff.mp ran
  exact ⟨store, replies, h, created, run, closed,
    (steps_store_sound builtinClasses_textual created run).2.2.1⟩

end OptionHost
