import OptionHost.Proofs.Evaluation
import OptionHost.Proofs.OnStore

/-!
# Scripts of option calls

A script that calls accessors in a row, catching some of the failures, and then returns. Its
course is what came of the calls, up to and including the first failure that nothing catches. The
calls can be made directly on a bridge or, by an engine, on behalf of an evaluation. Either way
the course is the same, and so is what becomes of the store: the calls that an evaluation makes
are followed here one by one, whatever engine makes them.
-/

namespace OptionHost

open Act

structure OptionCall where
  accessor : Accessor
  args : List Value
  kwargs : Entries
  caught : Bool

def OptionCall.action (c : OptionCall) : Action := .call c.accessor.name c.args c.kwargs c.caught

/-- The failure that a call ends its script with, if it does. -/
def OptionCall.fatal? (c : OptionCall) : Outcome → Option Raised
  | .ok _ => none
  | .error r => if c.caught then none else some r

/-- What a script returns that has made all its calls. -/
inductive OptionScript.Return where
  | value (v : Value)
  /-- The result of one of the calls; a failure that was caught counts as null. -/
  | result (call : Nat)

def OptionScript.Return.ending : OptionScript.Return → Ending
  | .value v => .value v
  | .result call => .result call

structure OptionScript where
  calls : List OptionCall
  last : OptionScript.Return

def OptionScript.plan (s : OptionScript) : Plan :=
  ⟨none, s.calls.map OptionCall.action, s.last.ending⟩

/-- The calls of a script that were made, each with what came of it. -/
structure Course where
  calls : List (String × Outcome)
  /-- The failure that nothing caught. -/
  death : Option Raised

def OptionCall.course (c : OptionCall) (outcome : Outcome) : Course :=
  ⟨[(c.accessor.name, outcome)], c.fatal? outcome⟩

def OptionCall.before (c : OptionCall) (outcome : Outcome) (rest : Course) : Course :=
  ⟨(c.accessor.name, outcome) :: rest.calls, rest.death⟩

/-- The result of a call as a script has it. -/
def resultOf : Outcome → Value
  | .ok v => v
  | .error _ => .null

/-- Makes calls in a row, counting them, up to the first failure that is not caught. -/
def Course.run (make : Nat → OptionCall → Act Outcome) : Nat → List OptionCall → Act Course
  | _, [] => return ⟨[], none⟩
  | k, c :: rest => do
    let outcome ← make k c
    match c.fatal? outcome with
    | some _ => return c.course outcome
    | none => return c.before outcome (← Course.run make (k + 1) rest)

/-- A call on an attached bridge. -/
def OptionCall.plainly (respond : Response) (c : OptionCall) : Act Outcome :=
  attempt (Bridge.call (storeAccess respond) true c.accessor c.args c.kwargs)

/-- The calls of a script, made directly on a bridge. -/
def OptionScript.direct (respond : Response) (bridge : Nat) (s : OptionScript) : Act Course :=
  Course.run (fun _ c => attempt (access respond bridge c.accessor c.args c.kwargs)) 0 s.calls

/-! ## What is seen of calls -/

def Entry.event? : Entry → Option (ListenerId × Change)
  | .notified id change => some (id, change)
  | _ => none

/-- The listener at which the telling of a change broke off. -/
def Entry.cut? : Entry → Option (ListenerId × Change)
  | .cut id change => some (id, change)
  | _ => none

/-- What listeners were told, the latest first. -/
def Host.events (h : Host) : List (ListenerId × Change) := h.journal.filterMap Entry.event?

/-- A call that the script of an evaluation made, with what it was given back. -/
def Entry.call? (run : Nat) : Entry → Option (String × Outcome)
  | .called id name outcome => if id = run then some (name, outcome) else none
  | _ => none

/-- The calls that the script of an evaluation made, the latest first. -/
def Host.callsOf (h : Host) (run : Nat) : List (String × Outcome) :=
  h.journal.filterMap (Entry.call? run)

theorem Entry.call?_of_store {e : Entry} (quiet : e.run? = none) (run : Nat) :
    e.call? run = none := by
  cases e with
  | called id name outcome => cases quiet
  | _ => rfl

theorem Host.events_overlay (h b : Host) : (h.overlay b).events = b.events ++ h.events :=
  List.filterMap_append

theorem Host.callsOf_overlay (h : Host) {b : Host} (quiet : ∀ e ∈ b.journal, e.run? = none)
    (run : Nat) : (h.overlay b).callsOf run = h.callsOf run := by
  have none_called : b.journal.filterMap (Entry.call? run) = [] := by
    rw [List.filterMap_eq_nil_iff]
    exact fun e member => Entry.call?_of_store (quiet e member) run
  refine List.filterMap_append.trans ?_
  rw [none_called]
  rfl

/-! ## Calls made on behalf of an evaluation -/

/-- An evaluation is under way whose bridge is attached. -/
structure Host.Live (h : Host) (run : Nat) : Prop where
  opened : ∃ e, h.evaluations[run]? = some e ∧ e.finished = false ∧
    h.bridges.getD e.bridge false = true
  priv : h.Private

/-- A host after calls of an evaluation: where the store is what it came to on its own, the
evaluation took the calls down, and nothing else has changed but the journal. -/
structure Host.Made (run : Nat) (h b : Host) (made : List (String × Outcome)) (h' : Host) :
    Prop where
  bare : h'.bare = b.bare
  bridges : h'.bridges = h.bridges
  evaluations : h'.evaluations =
    h.evaluations.modify run fun e => made.foldl (fun e m => e.after m.2) e
  events : h'.events = b.events ++ h.events
  calls : h'.callsOf run = made.reverse ++ h.callsOf run

theorem after_fold (made : List (String × Outcome)) (e : Evaluation) :
    (made.foldl (fun e m => e.after m.2) e).bridge = e.bridge ∧
      (made.foldl (fun e m => e.after m.2) e).finished = e.finished := by
  induction made generalizing e with
  | nil => exact ⟨rfl, rfl⟩
  | cons m rest ih =>
    have kept : (e.after m.2).bridge = e.bridge ∧ (e.after m.2).finished = e.finished := by
      unfold Evaluation.after
      split
      · exact ⟨rfl, rfl⟩
      · split
        · exact ⟨rfl, rfl⟩
        · exact ⟨rfl, rfl⟩
    exact ⟨(ih _).1.trans kept.1, (ih _).2.trans kept.2⟩

namespace Host.Made

variable {run : Nat} {h h₁ h' b c : Host} {made later : List (String × Outcome)}

theorem nil (run : Nat) (h : Host) : Host.Made run h h.bare [] h := by
  refine ⟨rfl, rfl, ?_, rfl, rfl⟩
  exact (List.modify_id run h.evaluations).symm

theorem trans (first : Host.Made run h b made h₁) (second : Host.Made run h₁ c later h')
    (level : c.level = b.level) : Host.Made run h (b.overlay c) (made ++ later) h' := by
  refine ⟨?_, ?_, ?_, ?_, ?_⟩
  · rw [second.bare, Host.bare_overlay level]
  · exact second.bridges.trans first.bridges
  · rw [second.evaluations, first.evaluations, List.modify_modify_eq]
    congr 1
    funext e
    exact List.foldl_append.symm
  · rw [second.events, first.events, Host.events_overlay, List.append_assoc]
  · rw [second.calls, first.calls, List.reverse_append, List.append_assoc]

theorem live (step : Host.Made run h b made h') (live : h.Live run) (priv : b.Private) :
    h'.Live run := by
  obtain ⟨e, found, underWay, attached⟩ := live.opened
  obtain ⟨bridge, finished⟩ := after_fold made e
  refine ⟨⟨made.foldl (fun e m => e.after m.2) e, ?_, ?_, ?_⟩, ?_⟩
  · rw [step.evaluations, List.getElem?_modify, found]
    simp only [Option.map_eq_map, Option.map_some, if_true]
  · rw [finished]
    exact underWay
  · rw [step.bridges, bridge]
    exact attached
  · have listeners : h'.bare.listeners = b.bare.listeners :=
      congrArg Host.listeners step.bare
    intro e member
    change e ∈ h'.bare.listeners at member
    rw [listeners] at member
    exact priv e member

end Host.Made

/-- A host that has taken down a call of an accessor. -/
def Host.noted (run : Nat) (a : Accessor) (outcome : Outcome) (h : Host) : Host :=
  { h with
    evaluations := h.evaluations.modify run (·.after outcome)
    journal := .accessed run a outcome :: h.journal }

theorem access_apply {respond : Response} {bridge : Nat} {h : Host}
    (attached : h.bridges.getD bridge false = true) (a : Accessor) (args : List Value)
    (kwargs : Entries) :
    access respond bridge a args kwargs h =
      Bridge.call (storeAccess respond) true a args kwargs h := by
  unfold access
  rw [bind_of_ok (show isAttached bridge h = some (.ok (h.bridges.getD bridge false), h) from rfl),
    attached]

/-- While an evaluation is under way, its accessors do what a bridge does, and it takes that
down. -/
theorem accessWithin_apply {respond : Response} (hr : respond.OnStore) {run : Nat} {h : Host}
    (live : h.Live run) (a : Accessor) (args : List Value) (kwargs : Entries) :
    accessWithin respond run a args kwargs h =
      (Bridge.call (storeAccess respond) true a args kwargs h.bare).map fun p =>
        (p.1, (h.overlay p.2).noted run a p.1) := by
  obtain ⟨e, found, underWay, attached⟩ := live.opened
  have same := (call_onStore hr true a args kwargs).same h live.priv
  unfold accessWithin
  rw [bind_of_ok (show evaluation run h = some (.ok e, h) by
    unfold evaluation
    rw [get_bind_apply, found]
    rfl), underWay, if_neg Bool.false_ne_true]
  cases called : Bridge.call (storeAccess respond) true a args kwargs h.bare with
  | none =>
    rw [called] at same
    rw [bind_of_none (by rw [attempt_apply, access_apply attached, same]; rfl)]
    rfl
  | some p =>
    obtain ⟨out, b⟩ := p
    rw [called, ← access_apply attached] at same
    rw [bind_of_ok (attempt_of_some same)]
    rw [bind_of_ok (show noteAccess run a out (h.overlay b) =
      some (.ok (), (h.overlay b).noted run a out) from rfl)]
    exact ofOutcome_apply out _

/-- Named arguments whose names are no texts are refused on either way. -/
theorem call_of_badNames {respond : Response} {kwargs : Entries}
    (bad : (kwargs.any fun e => !e.1.isText) = true) (a : Accessor) (args : List Value)
    (h : Host) :
    Bridge.call (storeAccess respond) true a args kwargs h =
      some (.error ⟨.wrongType .keywordsNotText, none⟩, h) := by
  have refused : a.argument args kwargs = .error (.wrongType .keywordsNotText) := by
    unfold Accessor.argument Signature.bind
    rw [bad]
    rfl
  unfold Bridge.call
  rw [refused]
  rfl

/-- How a call is made that an evaluation takes down: the outcome, and all else, is that of the
call on a bridge. -/
def Books (respond : Response) (run : Nat) (make : Nat → OptionCall → Act Outcome) : Prop :=
  ∀ (k : Nat) (c : OptionCall) (h : Host), h.Live run →
    (c.plainly respond h.bare = none → make k c h = none) ∧
      ∀ outcome b, c.plainly respond h.bare = some (.ok outcome, b) →
        ∃ h', make k c h = some (.ok outcome, h') ∧
          Host.Made run h b [(c.accessor.name, outcome)] h'

theorem plainly_onStore {respond : Response} (hr : respond.OnStore) (c : OptionCall) :
    (c.plainly respond).OnStore :=
  OnStore.attempt (call_onStore hr true c.accessor c.args c.kwargs)

namespace Course

theorem run_onStore {make : Nat → OptionCall → Act Outcome} (hm : ∀ k c, (make k c).OnStore)
    (k : Nat) (calls : List OptionCall) : (Course.run make k calls).OnStore := by
  induction calls generalizing k with
  | nil => exact OnStore.pure _
  | cons c rest ih =>
    refine OnStore.bind (hm k c) fun outcome => ?_
    cases c.fatal? outcome with
    | some r => exact OnStore.pure _
    | none => exact OnStore.bind (ih (k + 1)) fun _ => OnStore.pure _

theorem run_settles {make : Nat → OptionCall → Act Outcome} (hm : ∀ k c, (make k c).Settles)
    (k : Nat) (calls : List OptionCall) : (Course.run make k calls).Settles := by
  induction calls generalizing k with
  | nil => exact Settles.pure _
  | cons c rest ih =>
    refine Settles.bind (hm k c) fun outcome => ?_
    cases c.fatal? outcome with
    | some r => exact Settles.pure _
    | none => exact Settles.bind (ih (k + 1)) fun _ => Settles.pure _

/-- The course of calls that an evaluation takes down is the course of the calls as such. -/
theorem run_made {respond : Response} (hr : respond.OnStore) {run : Nat}
    {make : Nat → OptionCall → Act Outcome} (books : Books respond run make)
    (calls : List OptionCall) (k : Nat) (h : Host) (live : h.Live run) :
    (Course.run (fun _ c => c.plainly respond) k calls h.bare = none →
        Course.run make k calls h = none) ∧
      ∀ course b, Course.run (fun _ c => c.plainly respond) k calls h.bare = some (.ok course, b) →
        ∃ h', Course.run make k calls h = some (.ok course, h') ∧
          Host.Made run h b course.calls h' := by
  induction calls generalizing k h with
  | nil =>
    refine ⟨fun e => (by cases e), ?_⟩
    rintro course b ⟨⟩
    exact ⟨h, rfl, .nil run h⟩
  | cons c rest ih =>
    obtain ⟨lost, found⟩ := books k c h live
    have plain := plainly_onStore hr c
    cases called : c.plainly respond h.bare with
    | none =>
      refine ⟨fun _ => bind_of_none (lost called), ?_⟩
      intro course b e
      unfold Course.run at e
      rw [bind_of_none called] at e
      cases e
    | some p =>
      obtain ⟨out, b⟩ := p
      obtain ⟨outcome, rfl⟩ := Settles.attempt _ called
      obtain ⟨h₁, made, step⟩ := found outcome b called
      have privb := plain.keeps h _ b live.priv called
      unfold Course.run
      rw [bind_of_ok called, bind_of_ok made]
      cases fatal : c.fatal? outcome with
      | some r =>
        refine ⟨fun e => (by cases e), ?_⟩
        rintro course d ⟨⟩
        exact ⟨h₁, rfl, step⟩
      | none =>
        -- What follows starts where the first call left the store.
        obtain ⟨lostRest, foundRest⟩ := ih (k + 1) h₁ (step.live live privb)
        have same := (run_onStore (fun _ => plainly_onStore hr) (k + 1) rest).same b privb
        rw [← step.bare] at same
        cases later : Course.run (fun _ c => c.plainly respond) (k + 1) rest h₁.bare with
        | none =>
          rw [later] at same
          refine ⟨fun _ => bind_of_none (lostRest later), ?_⟩
          intro course d e
          dsimp only at e
          rw [bind_of_none same] at e
          cases e
        | some q =>
          obtain ⟨outRest, d⟩ := q
          obtain ⟨course, rfl⟩ := run_settles (fun _ _ => Settles.attempt _) _ _ later
          obtain ⟨h', madeRest, stepRest⟩ := foundRest course d later
          rw [later] at same
          dsimp only
          rw [bind_of_ok same, bind_of_ok madeRest]
          refine ⟨fun e => (by cases e), ?_⟩
          rintro whole e' ⟨⟩
          refine ⟨h', rfl, step.trans stepRest ?_⟩
          have first : h₁.bare.level = b.bare.level := congrArg Host.level step.bare
          have restOnStore := run_onStore (fun _ => plainly_onStore hr) (k + 1) rest
          exact (restOnStore.level_eq (step.live live privb).priv later).trans first

end Course

end OptionHost
