import OptionHost.Proofs.FailedRequests
import OptionHost.Proofs.ScriptRoutes

/-!
# One register for each option

Whichever way an option is written, the write is made in the store, and the journal says so before
anyone is told of it. So the journal alone says what every option is: what was written last, or the
initial value if nothing was. Reading an option gives this value whichever way it is read. A write
that was made stands, even if the telling of it breaks off and the writer is told of a failure.
-/

namespace OptionHost

open Act
open Host (Chronicle Upkeep Conduct Telling)

/-! ## What a journal says of an option -/

/-- The value that an entry tells to have been written to an option. -/
def Entry.written? (o : OptionName) : Entry → Option Value
  | .stored _ (some c) => if c.option = o then some c.new else none
  | _ => none

/-- The value of an option by a journal: what was written last, or the value at first. -/
def OptionValues.after (initial : OptionValues) (journal : List Entry) (o : OptionName) : Value :=
  (journal.findSome? (Entry.written? o)).getD (initial.get o)

def Unwritten (entries : List Entry) : Prop := ∀ e ∈ entries, ∀ o, e.written? o = none

section

variable {initial : OptionValues} {journal : List Entry} {e : Entry} {o : OptionName}

theorem OptionValues.after_cons (none : e.written? o = none) :
    initial.after (e :: journal) o = initial.after journal o := by
  rw [after, List.findSome?_cons, none, after]

theorem OptionValues.after_stored (t : Store) (c : Change) :
    initial.after (.stored t (some c) :: journal) o =
      if c.option = o then c.new else initial.after journal o := by
  rw [after, List.findSome?_cons, Entry.written?]
  by_cases here : c.option = o
  · rw [if_pos here, if_pos here]
    rfl
  · rw [if_neg here, if_neg here, after]

theorem Entry.written?_of_isPlain (plain : e.isPlain = true) : e.written? o = none := by
  cases e with
  | stored store write => cases plain
  | _ => rfl

theorem unwritten_logged (records : List Record) : Unwritten (records.map .logged) := by
  intro e mem o
  obtain ⟨r, -, rfl⟩ := List.mem_map.mp mem
  rfl

end

/-! ## The store holds what the journal says -/

/-- A store that began with given values holds what the journal says while it is ready. -/
structure Host.Holds (initial : OptionValues) (h : Host) : Prop where
  origin : h.store.initial = initial
  unready : h.store.condition = .uninitialized →
    ∀ o, initial.after h.journal o = initial.get o
  ready : ∀ values pattern, h.store.condition = .ready values pattern →
    ∀ o, values.get o = initial.after h.journal o

namespace Host.Holds

variable {initial : OptionValues} {h h' : Host}

theorem ofStore {classes : Entries} {store : Store}
    (created : Store.create initial classes = .ok store) : (Host.ofStore store).Holds initial := by
  rw [Store.create_eq_ok created]
  refine ⟨rfl, fun _ _ => rfl, ?_⟩
  rintro values pattern ⟨⟩

theorem of_same (holds : h.Holds initial) (kept : h'.store.initial = h.store.initial)
    (condition : h'.store.condition = h.store.condition)
    (journal : ∀ o, initial.after h'.journal o = initial.after h.journal o) :
    h'.Holds initial := by
  refine ⟨kept.trans holds.origin, ?_, ?_⟩
  · intro unready o
    rw [journal]
    exact holds.unready (condition ▸ unready) o
  · intro values pattern ready o
    rw [journal]
    exact holds.ready values pattern (condition ▸ ready) o

theorem stored (holds : h.Holds initial) {t : Store} {write : Option Change}
    (step : h.store.Step write t) :
    Host.Holds initial { h with store := t, journal := .stored t write :: h.journal } := by
  have kept (o : OptionName) : initial.after (.stored t none :: h.journal) o =
      initial.after h.journal o := OptionValues.after_cons rfl
  cases step with
  | start e =>
    obtain ⟨_, rfl⟩ | ⟨stage, chars, pattern, _, _, rfl⟩ := Store.start_cases e
    · exact holds.of_same rfl rfl kept
    · -- A store is started once, and nothing is written before.
      have unready : h.store.condition = .uninitialized := by
        cases condition : h.store.condition with
        | uninitialized => rfl
        | _ => simp [Store.stage, condition, Condition.stage] at stage
      refine ⟨holds.origin, ?_, ?_⟩
      · rintro ⟨⟩
      · rintro values pattern ⟨⟩ o
        dsimp only
        rw [kept, holds.unready unready, holds.origin]
  | close =>
    refine ⟨?_, ?_, ?_⟩
    · rw [← holds.origin]
      unfold Store.close
      split <;> rfl
    · intro unready
      have closed := h.store.close_stage
      rw [Store.stage, show h.store.close.condition = .uninitialized from unready] at closed
      cases closed
    · intro values pattern ready
      have closed := h.store.close_stage
      rw [Store.stage, show h.store.close.condition = .ready values pattern from ready] at closed
      cases closed
  | register id => exact holds.of_same rfl rfl kept
  | unregister e =>
    obtain rfl := Store.unregister_eq_ok e
    exact holds.of_same rfl rfl kept
  | write e =>
    obtain ⟨values, pattern, name, pattern', ready, _, _, rfl, rfl, _⟩ := Store.write_cases e
    refine ⟨holds.origin, ?_, ?_⟩
    · rintro ⟨⟩
    · rintro values' pattern'' ⟨⟩ o
      dsimp only
      rw [OptionValues.after_stored, OptionValues.get_set, holds.ready values pattern ready]

end Host.Holds

theorem Host.Move.holds {initial : OptionValues} {h h' : Host} (move : h.Move h')
    (holds : h.Holds initial) : h'.Holds initial := by
  cases move with
  | noted e plain =>
    exact holds.of_same rfl rfl fun o => OptionValues.after_cons (Entry.written?_of_isPlain plain)
  | stored step => exact holds.stored step
  | accessed id a outcome opened =>
    exact holds.of_same rfl rfl fun o => OptionValues.after_cons rfl
  | _ => exact holds.of_same rfl rfl fun o => rfl

theorem Host.Path.holds {initial : OptionValues} {h h' : Host} (path : h.Path h')
    (holds : h.Holds initial) : h'.Holds initial := by
  induction path with
  | refl => exact holds
  | tail _ move ih => exact move.holds ih

/-! ## No write -/

/-- What was written to the journal from one host to another one is about no write. -/
def Host.Idles (h h' : Host) : Prop := ∃ es, h'.journal = es ++ h.journal ∧ Unwritten es

namespace Host.Idles

variable {h h₁ h' : Host}

theorem of_same (journal : h'.journal = h.journal) : h.Idles h' :=
  ⟨[], journal, fun _ mem => by cases mem⟩

theorem noted {e : Entry} (journal : h'.journal = e :: h.journal)
    (unwritten : ∀ o, e.written? o = none) : h.Idles h' := by
  refine ⟨[e], journal, ?_⟩
  intro d mem
  rw [List.mem_singleton.mp mem]
  exact unwritten

theorem trans (first : h.Idles h₁) (second : h₁.Idles h') : h.Idles h' := by
  obtain ⟨es, grown, unwritten⟩ := first
  obtain ⟨ds, further, unwritten'⟩ := second
  refine ⟨ds ++ es, ?_, ?_⟩
  · rw [further, grown, List.append_assoc]
  · intro e mem
    rcases List.mem_append.mp mem with late | early
    · exact unwritten' e late
    · exact unwritten e early

theorem of_untouched (untouched : h.Untouched h') : h.Idles h' := by
  obtain ⟨records, rfl⟩ := untouched
  exact ⟨records.map .logged, rfl, unwritten_logged records⟩

end Host.Idles

instance : Upkeep Host.Idles where
  refl _ := .of_same rfl
  trans := Host.Idles.trans
  noted _ _ quiet := .noted rfl fun _ => Entry.written?_of_isPlain (Entry.isPlain_of_isQuiet quiet)
  stored _ := .noted rfl fun _ => rfl
  levelSet _ _ := .of_same rfl
  bridgeOpened _ := .of_same rfl
  bridgeDetached _ _ := .of_same rfl
  runnerOpened _ _ _ := .of_same rfl
  runnerClosed _ := .of_same rfl
  listenerAdded _ _ _ := .of_same rfl

/-! ## Reading and writing -/

theorem Store.get_eq_ok {s : Store} {option v : Value} (e : s.get option = .ok v) :
    ∃ values pattern o, s.condition = .ready values pattern ∧ OptionName.ofValue option = .ok o ∧
      v = values.get o := by
  unfold Store.get at e
  obtain ⟨⟨values, pattern⟩, required, e⟩ := Except.bind_eq_ok e
  obtain ⟨o, named, e⟩ := Except.bind_eq_ok e
  cases e
  exact ⟨values, pattern, o, require_eq_ok required, named, rfl⟩

theorem OptionName.eq_of_ofValue {option : Value} {o : OptionName}
    (named : ofValue option = .ok o) : option = .text o.name := by
  unfold ofValue at named
  split at named
  · cases named
    rfl
  · cases named
    rfl
  · cases named
    rfl
  · cases named
  · split at named
    · cases named
    · cases named

theorem Host.Holds.read {initial : OptionValues} {h : Host} (holds : h.Holds initial)
    {option v : Value} {o : OptionName} (named : OptionName.ofValue option = .ok o)
    (read : h.store.get option = .ok v) : v = initial.after h.journal o := by
  obtain ⟨values, pattern, p, ready, known, rfl⟩ := Store.get_eq_ok read
  obtain rfl : o = p := Except.ok.inj (named.symm.trans known)
  exact holds.ready values pattern ready o

theorem Host.Holds.answers {initial : OptionValues} {h : Host} (holds : h.Holds initial)
    {option : Value} {o : OptionName} {values : OptionValues} {pattern : Pattern}
    (ready : h.store.condition = .ready values pattern)
    (named : OptionName.ofValue option = .ok o) :
    ask (·.get option) h = some (.ok (initial.after h.journal o), h) := by
  have read : h.store.get option = .ok (values.get o) := by
    simp only [Store.get, Store.require, ready, named]
    rfl
  rw [ask_apply, read, holds.ready values pattern ready]
  rfl

/-- From one host to another one a write is committed before anything else is noted. -/
def Host.Commits (initial : OptionValues) (o : OptionName) (v : Value) (h h' : Host) : Prop :=
  ∃ t later, h.store.write (.text o.name) v = .ok (⟨o, initial.after h.journal o, v⟩, t) ∧
    h'.journal = later ++ .stored t (some ⟨o, initial.after h.journal o, v⟩) :: h.journal

/-- A write was committed, and then its telling broke off. -/
def Host.Overthrown (initial : OptionValues) (respond : Response) (o : OptionName) (v : Value)
    (h h' : Host) : Prop :=
  h.Commits initial o v h' ∧
    ∃ h₁, BrokeOff respond ⟨o, initial.after h.journal o, v⟩ h₁ ∧ h₁.Idles h'

section

variable {initial : OptionValues} {respond : Response} {o : OptionName} {v : Value}
  {h h₁ h' : Host}

theorem Host.Commits.idles (commits : h.Commits initial o v h₁) (idles : h₁.Idles h') :
    h.Commits initial o v h' := by
  obtain ⟨t, later, written, grown⟩ := commits
  obtain ⟨es, further, -⟩ := idles
  refine ⟨t, es ++ later, written, ?_⟩
  rw [further, grown, List.append_assoc]

theorem Host.Overthrown.idles (overthrown : h.Overthrown initial respond o v h₁)
    (idles : h₁.Idles h') : h.Overthrown initial respond o v h' := by
  obtain ⟨commits, h₂, brokeOff, before⟩ := overthrown
  exact ⟨commits.idles idles, h₂, brokeOff, before.trans idles⟩

end

/-- The host with a record in its journal, if the record is written there. -/
def Host.saying (h : Host) (r : Record) : Host := { h with journal := sayEntries h r ++ h.journal }

/-- What a setter makes of what came of its write. -/
def Bridge.concluded (o : OptionName) (v : Value) :
    Except Raised Unit × Host → Except Raised Unit × Host
  | (.ok _, h) => (.ok (), h.saying (setRecord o v))
  | (.error r, h) => (.error (if r.fault.isWrongValue then reported o v r else r), h)

namespace Act

variable {respond : Response} {bridge run : Nat} {o : OptionName} {args : List Value}
  {kwargs : Entries} {v : Value} {h h' : Host}

theorem say_saying (r : Record) (h : Host) : say r h = some (.ok (), h.saying r) := say_apply r h

/-- A setter that lets a value through makes no more and no less of it than the write, and a record
of the write if it succeeds. -/
theorem carryOut_concluded (h : Host) :
    (do
      try (storeAccess respond).write o v
      catch r =>
        if r.fault.isWrongValue then throw (Bridge.reported o v r) else throw r
      (storeAccess respond).say (Bridge.setRecord o v) : Act Unit) h =
        (setOption respond (.text o.name) v h).map (Bridge.concluded o v) := by
  rw [bind_apply, tryCatch_apply]
  change ((setOption respond (.text o.name) v h).bind _).bind _ = _
  cases setOption respond (.text o.name) v h with
  | none => rfl
  | some p =>
    obtain ⟨out, h'⟩ := p
    cases out with
    | ok _ => exact say_saying _ h'
    | error r =>
      rw [Option.bind_some, Option.map_some, Bridge.concluded]
      dsimp only
      split <;> rfl

theorem require_eq_ok {attached : Bool} {h₁ : Host}
    (e : (Bridge.require attached o : Act Unit) h = some (.ok (), h₁)) : h₁ = h := by
  cases attached with
  | true =>
    cases e
    rfl
  | false => cases e

theorem ask_eq_ok {α : Type} {f : Store → Except Fault α} {a : α} {h₁ : Host}
    (e : ask f h = some (.ok a, h₁)) : f h.store = .ok a ∧ h₁ = h := by
  rw [ask_apply] at e
  obtain ⟨asked, rfl⟩ := Prod.mk.inj (Option.some.inj e)
  exact ⟨Except.mapError_eq_ok.mp asked, rfl⟩

theorem access_getter (e : access respond bridge (.getter o) args kwargs h = some (.ok v, h')) :
    h.store.get (.text o.name) = .ok v ∧ h' = h := by
  change Bridge.call (storeAccess respond) (h.bridges.getD bridge false) (.getter o) args kwargs h =
    some (.ok v, h') at e
  unfold Bridge.call at e
  cases bound : (Accessor.getter o).argument args kwargs with
  | error fault =>
    rw [bound] at e
    cases e
  | ok w =>
    rw [bound] at e
    obtain ⟨_, _, failed⟩ | ⟨_, h₁, required, went⟩ := bind_eq_some e
    · cases failed
    obtain rfl := require_eq_ok required
    obtain ⟨_, _, failed⟩ | ⟨u, h₂, asked, came⟩ := bind_eq_some went
    · cases failed
    obtain ⟨read, rfl⟩ := ask_eq_ok (f := (·.get (.text o.name))) asked
    split at came
    · cases came
      exact ⟨read, rfl⟩
    · cases came

theorem access_unbound {a : Accessor} {fault : Fault} {out : Outcome}
    (unbound : a.argument args kwargs = .error fault)
    (e : access respond bridge a args kwargs h = some (out, h')) : h' = h := by
  change Bridge.call (storeAccess respond) (h.bridges.getD bridge false) a args kwargs h =
    some (out, h') at e
  unfold Bridge.call at e
  rw [unbound] at e
  cases e
  rfl

theorem access_getter_quiet {out : Outcome}
    (e : access respond bridge (.getter o) args kwargs h = some (out, h')) : h.Untouched h' := by
  cases bound : (Accessor.getter o).argument args kwargs with
  | error fault => exact access_unbound bound e ▸ .refl h
  | ok v =>
    change Bridge.call (storeAccess respond) (h.bridges.getD bridge false) (.getter o) args kwargs
      h = some (out, h') at e
    unfold Bridge.call at e
    rw [bound] at e
    exact get_quiet _ o e

/-- What is refused after a word about it leaves nothing but the word. -/
theorem say_refuse_cases {α : Type} {record : Record} {fault : Fault} {f : PUnit → Act α}
    {out : Except Raised α}
    (e : (say record >>= fun _ => Bridge.refuse fault >>= f) h = some (out, h')) :
    (∃ r, out = .error r) ∧ h.Untouched h' := by
  obtain ⟨r, failed, rfl⟩ | ⟨_, h₁, said, refused⟩ := bind_eq_some e
  · exact ⟨⟨r, rfl⟩, Quiet.say _ failed⟩
  · cases refused
    exact ⟨⟨_, rfl⟩, Quiet.say _ said⟩

/-- A setter refuses a value, or it writes the value and says so. -/
theorem set_cases {attached : Bool} {out : Except Raised Unit}
    (e : Bridge.set (storeAccess respond) attached o v h = some (out, h')) :
    (∃ r, out = .error r) ∧ h.Untouched h' ∨
      ∃ wrote h₁, setOption respond (.text o.name) v h = some (wrote, h₁) ∧ h₁.Untouched h' ∧
        (out = .ok () ∧ wrote = .ok () ∨ (∃ r, out = .error r) ∧ ∃ r, wrote = .error r) := by
  have written
      (went : (setOption respond (.text o.name) v h).map (Bridge.concluded o v) = some (out, h')) :
      ∃ wrote h₁, setOption respond (.text o.name) v h = some (wrote, h₁) ∧ h₁.Untouched h' ∧
        (out = .ok () ∧ wrote = .ok () ∨ (∃ r, out = .error r) ∧ ∃ r, wrote = .error r) := by
    obtain ⟨⟨wrote, h₁⟩, ran, came⟩ := Option.map_eq_some_iff.mp went
    cases wrote with
    | ok _ =>
      cases came
      exact ⟨_, h₁, ran, Quiet.say _ (say_saying _ h₁), .inl ⟨rfl, rfl⟩⟩
    | error failure =>
      cases came
      exact ⟨_, _, ran, .refl _, .inr ⟨⟨_, rfl⟩, failure, rfl⟩⟩
  unfold Bridge.set at e
  obtain ⟨r, failed, rfl⟩ | ⟨_, h₁, required, went⟩ := bind_eq_some e
  · exact .inl ⟨⟨r, rfl⟩, require_quiet attached o failed⟩
  obtain rfl := require_eq_ok required
  dsimp only at went
  split at went
  · exact .inl (say_refuse_cases went)
  · split at went
    · obtain ⟨r, failed, rfl⟩ | ⟨admitted, h₂, asked, came⟩ := bind_eq_some went
      · exact .inl ⟨⟨r, rfl⟩, Quiet.ask (·.admits (.text o.name) v) failed⟩
      obtain ⟨-, rfl⟩ := ask_eq_ok (f := (·.admits (.text o.name) v)) asked
      split at came
      · exact .inl (say_refuse_cases came)
      · exact .inr (written ((carryOut_concluded _).symm.trans came))
    · exact .inr (written ((carryOut_concluded _).symm.trans went))

theorem access_setter {out : Outcome} (given : (Accessor.setter o).argument args kwargs = .ok v)
    (e : access respond bridge (.setter o) args kwargs h = some (out, h')) :
    (∃ r, out = .error r) ∧ h.Untouched h' ∨
      ∃ wrote h₁, setOption respond (.text o.name) v h = some (wrote, h₁) ∧ h₁.Untouched h' ∧
        ((∃ u, out = .ok u) ∧ wrote = .ok () ∨ (∃ r, out = .error r) ∧ ∃ r, wrote = .error r) := by
  change Bridge.call (storeAccess respond) (h.bridges.getD bridge false) (.setter o) args kwargs h =
    some (out, h') at e
  unfold Bridge.call at e
  rw [given] at e
  obtain ⟨r, failed, rfl⟩ | ⟨_, h₁, set, done⟩ := bind_eq_some e
  · obtain ⟨-, untouched⟩ | ⟨wrote, h₁, ran, untouched, ⟨impossible, -⟩ | ⟨-, lost⟩⟩ :=
      set_cases failed
    · exact .inl ⟨⟨r, rfl⟩, untouched⟩
    · cases impossible
    · exact .inr ⟨wrote, h₁, ran, untouched, .inr ⟨⟨r, rfl⟩, lost⟩⟩
  · cases done
    obtain ⟨⟨_, impossible⟩, -⟩ | ⟨wrote, h₂, ran, untouched, ⟨-, made⟩ | ⟨⟨_, impossible⟩, -⟩⟩ :=
      set_cases set
    · cases impossible
    · exact .inr ⟨wrote, h₂, ran, untouched, .inl ⟨⟨_, rfl⟩, made⟩⟩
    · cases impossible

end Act

/-! ## Calls of accessors -/

namespace Site

variable {site : Site} {c : OptionCall} {h h' : Host} {out : Outcome}

theorem invokeAccessor_cases (e : site.invokeAccessor c h = some (out, h')) :
    (∃ r, out = .error r ∧ h' = h) ∨
      accessWithin site.respond site.run c.accessor c.args c.kwargs h = some (out, h') := by
  by_cases bad : (c.kwargs.any fun e => !e.1.isText) = true
  · rw [invokeAccessor_of_badNames bad] at e
    cases e
    exact .inl ⟨_, rfl, rfl⟩
  · rw [invokeAccessor_of_names bad] at e
    exact .inr e

end Site

theorem Route.make_cases {route : Route} {site : Site} {k : Nat} {c : OptionCall} {h h' : Host}
    {out : Except Raised Outcome} (e : route.make site k c h = some (out, h')) :
    ∃ outcome h₁, out = .ok outcome ∧ site.invokeAccessor c h = some (outcome, h₁) ∧
      h₁.Idles h' := by
  -- Monty notes that it resumes the script, besides what is noted on either engine.
  have starlark (e : Starlark.make site k c h = some (out, h')) :
      ∃ outcome h₁, out = .ok outcome ∧ site.invokeAccessor c h = some (outcome, h₁) ∧
        h₁.Idles h' := by
    obtain ⟨outcome, h₁, invoked, went⟩ := attempt_bind_eq_some e
    cases went
    exact ⟨outcome, h₁, rfl, invoked, .noted rfl fun _ => rfl⟩
  cases route with
  | montyAwaited =>
    obtain ⟨outcome, h₁, invoked, went⟩ := attempt_bind_eq_some e
    cases went
    refine ⟨outcome, h₁, rfl, invoked, ?_⟩
    have resumed : h₁.Idles
        { h₁ with journal := .resumed site.run (k + 1) false outcome :: h₁.journal } :=
      .noted rfl fun _ => rfl
    refine resumed.trans ?_
    exact .noted (e := .called site.run c.accessor.name outcome) rfl fun _ => rfl
  | _ => exact starlark e

namespace Act

variable {respond : Response} {a : Accessor} {o : OptionName} {args : List Value}
  {kwargs : Entries} {v : Value} {act : Act Value}

/-- The ways in which an accessor can be called: through any bridge, through the current one, for
an evaluation, by a script on an engine, and after an evaluation that it was handed to. -/
inductive Calls (respond : Response) (a : Accessor) :
    List Value → Entries → Act Value → Prop where
  | bridge (bridge : Nat) (args : List Value) (kwargs : Entries) :
    Calls respond a args kwargs (access respond bridge a args kwargs)
  | current {name : String} (named : Accessor.ofName? name = some a) (args : List Value)
    (kwargs : Entries) : Calls respond a args kwargs (Session.access respond name args kwargs)
  | evaluation (run : Nat) (args : List Value) (kwargs : Entries) :
    Calls respond a args kwargs (accessWithin respond run a args kwargs)
  | script (route : Route) (run : Nat) (config : RunnerConfig) (k : Nat) (args : List Value)
    (kwargs : Entries) (caught : Bool) :
    Calls respond a args kwargs do
      ofOutcome (← route.make ⟨run, config, respond⟩ k ⟨a, args, kwargs, caught⟩)
  | late {name : String} (named : Accessor.ofName? name = some a) (args : List Value) :
    Calls respond a args [] (Session.late respond name args)

theorem accessWithin_over {run : Nat} {h h' : Host} {out : Outcome}
    (e : accessWithin respond run a args kwargs h = some (out, h')) :
    (∃ r, out = .error r ∧ h.Idles h') ∨
      ∃ bridge h₁, access respond bridge a args kwargs h = some (out, h₁) ∧ h₁.Idles h' := by
  obtain ⟨-, failed, rfl⟩ | ⟨bridge, runs⟩ := runs_of_accessWithin e
  · exact .inl ⟨_, failed, .of_same rfl⟩
  · obtain ⟨h₁, accessed, rfl⟩ := accessWithin_cases runs e
    exact .inr ⟨bridge, h₁, accessed, .noted (e := .accessed run a out) rfl fun _ => rfl⟩

/-- Whichever way an accessor is called, the call fails on the way or it is a call of a bridge. -/
theorem Calls.cases {h h' : Host} {out : Outcome} (calls : Calls respond a args kwargs act)
    (e : act h = some (out, h')) :
    (∃ r, out = .error r ∧ h.Idles h') ∨
      ∃ bridge h₁, access respond bridge a args kwargs h = some (out, h₁) ∧ h₁.Idles h' := by
  cases calls with
  | bridge bridge => exact .inr ⟨bridge, h', e, .of_same rfl⟩
  | current named =>
    unfold Session.access at e
    rw [named] at e
    exact .inr ⟨h.bridge.getD 0, h', e, .of_same rfl⟩
  | evaluation run => exact accessWithin_over e
  | script route run config k _ _ caught =>
    obtain ⟨_, failed, -⟩ | ⟨outcome, h₁, made, given⟩ := bind_eq_some e
    · obtain ⟨_, _, impossible, -⟩ := Route.make_cases failed
      cases impossible
    obtain ⟨_, h₂, same, invoked, idles⟩ := Route.make_cases made
    cases same
    rw [ofOutcome_apply] at given
    cases given
    obtain ⟨r, rfl, rfl⟩ | accessed := Site.invokeAccessor_cases invoked
    · exact .inl ⟨r, rfl, idles⟩
    · obtain ⟨r, rfl, before⟩ | ⟨bridge, h₃, called, before⟩ := accessWithin_over accessed
      · exact .inl ⟨r, rfl, before.trans idles⟩
      · exact .inr ⟨bridge, h₃, called, before.trans idles⟩
  | late named =>
    unfold Session.late at e
    rw [get_bind_apply, named] at e
    cases injected : h.injected with
    | none =>
      rw [injected] at e
      cases e
      exact .inl ⟨_, rfl, .of_same rfl⟩
    | some run =>
      rw [injected] at e
      exact accessWithin_over e

/-- The ways to read an option: from the store, or by a call of its getter. -/
inductive Reads (respond : Response) (o : OptionName) : Act Value → Prop where
  | store {option : Value} (named : OptionName.ofValue option = .ok o) :
    Reads respond o (ask (·.get option))
  | getter {args : List Value} {kwargs : Entries} {act : Act Value}
    (calls : Calls respond (.getter o) args kwargs act) : Reads respond o act

/-- The ways to write an option: to the store, or by a call of its setter. -/
inductive Writes (respond : Response) (o : OptionName) (v : Value) : Act Value → Prop where
  | store {option : Value} (named : OptionName.ofValue option = .ok o) :
    Writes respond o v do
      setOption respond option v
      return .null
  | setter {args : List Value} {kwargs : Entries} {act : Act Value}
    (given : (Accessor.setter o).argument args kwargs = .ok v)
    (calls : Calls respond (.setter o) args kwargs act) : Writes respond o v act

section

variable {initial : OptionValues} {h h' : Host}

theorem Reads.read (holds : h.Holds initial) (reads : Reads respond o act)
    (e : act h = some (.ok v, h')) : v = initial.after h.journal o ∧ h.Idles h' := by
  cases reads with
  | store named =>
    obtain ⟨read, rfl⟩ := ask_eq_ok e
    exact ⟨holds.read named read, .of_same rfl⟩
  | getter calls =>
    obtain ⟨_, failed, -⟩ | ⟨bridge, h₁, accessed, idles⟩ := calls.cases e
    · cases failed
    obtain ⟨read, rfl⟩ := access_getter accessed
    exact ⟨holds.read (OptionName.ofValue_name o) read, idles⟩

/-- What comes of a write: the store refuses it, or it is committed and everyone is told, or its
telling breaks off. -/
theorem setOption_over (holds : h.Holds initial) (hr : respond.Along Host.Tells)
    {out : Except Raised Unit} (e : setOption respond (.text o.name) v h = some (out, h')) :
    (∃ fault, h.store.write (.text o.name) v = .error fault ∧ out = .error fault ∧ h' = h) ∨
      h.Commits initial o v h' ∧ out = .ok () ∨
      h.Overthrown initial respond o v h' ∧ ∃ r, out = .error r := by
  cases written : h.store.write (.text o.name) v with
  | error fault =>
    rw [setOption_of_refused written] at e
    cases e
    exact .inl ⟨fault, rfl, rfl, rfl⟩
  | ok p =>
    obtain ⟨change, t⟩ := p
    obtain ⟨later, grown, -⟩ := Host.Tells.telling (setOption_telling hr written e)
    obtain ⟨values, pattern, p, _, ready, known, _, rfl, _, _⟩ := Store.write_cases written
    obtain rfl : o = p := Except.ok.inj ((OptionName.ofValue_name o).symm.trans known)
    have commits : h.Commits initial o v h' := by
      rw [holds.ready values pattern ready] at grown written
      exact ⟨t, later.reverse, written, grown⟩
    obtain rfl | ⟨rfl, brokeOff⟩ := setOption_of_written written e
    · exact .inr (.inl ⟨commits, rfl⟩)
    · rw [holds.ready values pattern ready] at brokeOff
      exact .inr (.inr ⟨⟨commits, h', brokeOff, .of_same rfl⟩, _, rfl⟩)

theorem Calls.setter (holds : h.Holds initial) (hr : respond.Along Host.Tells)
    (calls : Calls respond (.setter o) args kwargs act)
    (given : (Accessor.setter o).argument args kwargs = .ok v) {out : Outcome}
    (e : act h = some (out, h')) :
    (∃ r, out = .error r) ∧ h.Idles h' ∨ h.Commits initial o v h' ∧ (∃ u, out = .ok u) ∨
      h.Overthrown initial respond o v h' ∧ ∃ r, out = .error r := by
  obtain ⟨r, rfl, idles⟩ | ⟨bridge, h₁, accessed, idles⟩ := calls.cases e
  · exact .inl ⟨⟨r, rfl⟩, idles⟩
  obtain ⟨lost, untouched⟩ | ⟨wrote, h₂, ran, untouched, ended⟩ := access_setter given accessed
  · exact .inl ⟨lost, .trans (.of_untouched untouched) idles⟩
  have after : h₂.Idles h' := .trans (.of_untouched untouched) idles
  obtain ⟨fault, -, rfl, rfl⟩ | ⟨commits, rfl⟩ | ⟨overthrown, failed⟩ := setOption_over holds hr ran
  · obtain ⟨-, impossible⟩ | ⟨lost, -⟩ := ended
    · cases impossible
    · exact .inl ⟨lost, after⟩
  · obtain ⟨made, -⟩ | ⟨-, _, impossible⟩ := ended
    · exact .inr (.inl ⟨commits.idles after, made⟩)
    · cases impossible
  · obtain ⟨-, rfl⟩ | ⟨lost, -⟩ := ended
    · obtain ⟨_, impossible⟩ := failed
      cases impossible
    · exact .inr (.inr ⟨overthrown.idles after, lost⟩)

/-- A write fails and is not made, or it is committed; then it succeeds unless its telling breaks
off. -/
theorem Writes.over (holds : h.Holds initial) (hr : respond.Along Host.Tells)
    (writes : Writes respond o v act) {out : Outcome} (e : act h = some (out, h')) :
    (∃ r, out = .error r) ∧ h.Idles h' ∨ h.Commits initial o v h' ∧ (∃ u, out = .ok u) ∨
      h.Overthrown initial respond o v h' ∧ ∃ r, out = .error r := by
  cases writes with
  | setter given calls => exact calls.setter holds hr given e
  | store named =>
    obtain rfl := OptionName.eq_of_ofValue named
    obtain ⟨r, failed, rfl⟩ | ⟨_, h₁, wrote, done⟩ := bind_eq_some e
    · obtain ⟨_, -, -, rfl⟩ | ⟨-, impossible⟩ | ⟨overthrown, -⟩ := setOption_over holds hr failed
      · exact .inl ⟨⟨r, rfl⟩, .of_same rfl⟩
      · cases impossible
      · exact .inr (.inr ⟨overthrown, r, rfl⟩)
    · cases done
      obtain ⟨_, -, impossible, -⟩ | ⟨commits, -⟩ | ⟨-, _, impossible⟩ :=
        setOption_over holds hr wrote
      · cases impossible
      · exact .inr (.inl ⟨commits, _, rfl⟩)
      · cases impossible

/-- A call that fails writes nothing, unless it is the call of a setter whose write is committed and
whose telling breaks off. -/
theorem Calls.failed (holds : h.Holds initial) (hr : respond.Along Host.Tells)
    (calls : Calls respond a args kwargs act) {r : Raised} (e : act h = some (.error r, h')) :
    h.Idles h' ∨ ∃ o v, a = .setter o ∧ a.argument args kwargs = .ok v ∧
      h.Overthrown initial respond o v h' := by
  have unwritten (quiet : ∀ bridge h₁, access respond bridge a args kwargs h = some (.error r, h₁) →
      h.Untouched h₁) : h.Idles h' := by
    obtain ⟨_, _, idles⟩ | ⟨bridge, h₁, accessed, idles⟩ := calls.cases e
    · exact idles
    · exact .trans (.of_untouched (quiet bridge h₁ accessed)) idles
  cases a with
  | getter o => exact .inl (unwritten fun _ _ accessed => access_getter_quiet accessed)
  | setter o =>
    cases given : (Accessor.setter o).argument args kwargs with
    | error fault =>
      exact .inl (unwritten fun _ _ accessed => access_unbound given accessed ▸ .refl h)
    | ok v =>
      obtain ⟨-, idles⟩ | ⟨-, _, impossible⟩ | ⟨overthrown, -⟩ := calls.setter holds hr given e
      · exact .inl idles
      · cases impossible
      · exact .inr ⟨o, v, rfl, rfl, overthrown⟩

end

end Act

/-! ## What scripts were given -/

/-- Every value that a script read is what the journal said of the option until then. -/
def Faithful (initial : OptionValues) (journal : List Entry) : Prop :=
  ∀ later run o v earlier, journal = later ++ .accessed run (.getter o) (.ok v) :: earlier →
    v = initial.after earlier o

theorem Faithful.cons {initial : OptionValues} {journal : List Entry} {e : Entry}
    (faithful : Faithful initial journal)
    (read : ∀ run o v, e = .accessed run (.getter o) (.ok v) → v = initial.after journal o) :
    Faithful initial (e :: journal) := by
  intro later run o v earlier split
  cases later with
  | nil =>
    obtain ⟨same, rfl⟩ := List.cons.inj split
    exact read run o v same
  | cons d later =>
    obtain ⟨-, rfl⟩ := List.cons.inj split
    exact faithful later run o v earlier rfl

/-- The second host comes from the first one by moves, and its journal is as faithful. -/
def Host.Recounts (initial : OptionValues) (h h' : Host) : Prop :=
  h.Path h' ∧ (h.Holds initial → Faithful initial h.journal → Faithful initial h'.journal)

namespace Host.Recounts

variable {initial : OptionValues} {h h₁ h' : Host}

theorem of_same (path : h.Path h') (journal : h'.journal = h.journal) : h.Recounts initial h' :=
  ⟨path, fun _ faithful => journal ▸ faithful⟩

theorem noted (path : h.Path h') {e : Entry} (journal : h'.journal = e :: h.journal)
    (other : ∀ run o v, e ≠ .accessed run (.getter o) (.ok v)) : h.Recounts initial h' := by
  refine ⟨path, fun _ faithful => ?_⟩
  rw [journal]
  exact faithful.cons fun run o v same => absurd same (other run o v)

theorem trans (first : h.Recounts initial h₁) (second : h₁.Recounts initial h') :
    h.Recounts initial h' := by
  obtain ⟨path, kept⟩ := first
  obtain ⟨path', kept'⟩ := second
  exact ⟨path.trans path', fun holds faithful => kept' (path.holds holds) (kept holds faithful)⟩

theorem quiet (h : Host) {e : Entry} (quiet : e.isQuiet = true) :
    h.Recounts initial { h with journal := e :: h.journal } := by
  refine noted (Chronicle.noted h quiet) rfl ?_
  rintro run o v rfl
  cases quiet

theorem telling {change : Change} {ids : List ListenerId}
    (telling : Telling (Host.Recounts initial) change ids h h') : h.Recounts initial h' := by
  induction telling with
  | done h => exact of_same .refl rfl
  | noted isQuiet _ ih => exact (quiet _ isQuiet).trans ih
  | told heard _ ih =>
    refine trans (noted (.single (.noted _ rfl)) rfl ?_) (heard.trans ih)
    rintro run o v ⟨⟩
  | cut heard =>
    refine trans (noted (.single (.noted _ rfl)) rfl ?_)
      (heard.trans (noted (.single (.noted _ rfl)) rfl ?_)) <;>
    rintro run o v ⟨⟩

instance : Conduct (Host.Recounts initial) where
  refl h := of_same .refl rfl
  trans := trans
  noted h _ isQuiet := quiet h isQuiet
  stored step := noted (Upkeep.stored step) rfl (by rintro run o v ⟨⟩)
  wrote written told :=
    trans (noted (.single (.stored (.write written))) rfl (by rintro run o v ⟨⟩)) (telling told)
  levelSet h level := of_same (Upkeep.levelSet h level) rfl
  bridgeOpened h := of_same (Upkeep.bridgeOpened h) rfl
  bridgeDetached h bridge := of_same (Upkeep.bridgeDetached h bridge) rfl
  runnerOpened h config i := of_same (Upkeep.runnerOpened h config i) rfl
  runnerClosed found := of_same (Upkeep.runnerClosed found) rfl
  listenerAdded h id listener := of_same (Upkeep.listenerAdded h id listener) rfl
  accessed found underWay called a outcome came := by
    refine ⟨Conduct.accessed found underWay called.1 a outcome came, ?_⟩
    intro holds faithful
    obtain ⟨respond, args, kwargs, access⟩ := came
    refine (called.2 holds faithful).cons ?_
    rintro run o v ⟨⟩
    -- A getter writes nothing, so the journal behind its entry is the one at the time of the call.
    obtain ⟨read, rfl⟩ := access_getter access
    exact holds.read (OptionName.ofValue_name o) read
  evaluated {h h₁ _ _ runner} _ ran rest := by
    have entered : h.Recounts initial (runner.entered h) := by
      refine of_same (Runner.entered_path runner h) ?_
      unfold Runner.entered
      split <;> rfl
    have expired : h₁.Recounts initial (Runner.expired h.evaluations.length h₁) :=
      of_same (.single (.evaluationFinished _)) rfl
    exact entered.trans (ran.trans (expired.trans rest))

end Host.Recounts

/-! ## The registers of a host -/

/-- A host deals with its options as with registers: the journal says what is in each of them. -/
structure Host.Registers (initial : OptionValues) (respond : Response) (h : Host) : Prop where
  answers : ∀ o option values pattern, h.store.condition = .ready values pattern →
    OptionName.ofValue option = .ok o →
      ask (·.get option) h = some (.ok (initial.after h.journal o), h)
  /-- A read that succeeds, by whichever way, gives what the option is, and writes nothing. -/
  read : ∀ o act v h', Reads respond o act → act h = some (.ok v, h') →
    v = initial.after h.journal o ∧ h.Idles h'
  /-- A write that succeeds is committed, as a change from what the option was until then. -/
  wrote : ∀ o v act u h', Writes respond o v act → act h = some (.ok u, h') →
    h.Commits initial o v h'
  /-- A write that fails is not made, unless it was committed and the telling of it broke off. -/
  refused : ∀ o v act r h', Writes respond o v act → act h = some (.error r, h') →
    h.Idles h' ∨ h.Overthrown initial respond o v h'
  /-- What the store does not take is not written, whatever comes of the write. -/
  rejected : ∀ o v act fault out h', h.store.write (.text o.name) v = .error fault →
    Writes respond o v act → act h = some (out, h') → h.Idles h'
  failed : ∀ a args kwargs act r h', Calls respond a args kwargs act →
    act h = some (.error r, h') → h.Idles h' ∨
      ∃ o v, a = .setter o ∧ a.argument args kwargs = .ok v ∧
        h.Overthrown initial respond o v h'
  idle : ∀ request out h', request.isIdle = true →
    Session.perform respond request h = some (out, h') → h.Idles h'

namespace Session

/-- A script that turns wrapping off and reads it. -/
def checking : Job :=
  ⟨true, none, fun _ => .readable (.calls "opt_set_wrap" [.bool false] [] fun _ =>
    .calls "opt_get_wrap" [] [] fun
      | .ok v => .returns v
      | .error r => .raises r)⟩

/-- A listener that turns wrapping back on, and a runner. -/
def contested : List Request := [.start, .register "first" rebounding, .openRunner [] true]

end Session

end OptionHost
