import OptionHost.Proofs.NameTable
import OptionHost.Proofs.OptionScript
import OptionHost.Proofs.Snapshot

/-!
# Calls of accessors by the engines

Starlark calls an accessor inside the script, while Monty halts the script, calls the accessor and
resumes the script with what came of it. What Monty does on top of the call leaves no trace but
entries of the journal, since an accessor never gives back a value that the interpreter could not
take over. So on either engine a call of an accessor comes to what it comes to on a bridge.
-/

namespace OptionHost

open Act

/-! ## What a call leaves behind -/

/-- A host on which an evaluation had a call of an accessor answered, and has not yet passed the
answer on to its script. -/
structure Host.Answered (run : Nat) (h b : Host) (outcome : Outcome) (h' : Host) : Prop where
  bare : h'.bare = b.bare
  bridges : h'.bridges = h.bridges
  evaluations : h'.evaluations = h.evaluations.modify run (·.after outcome)
  events : h'.events = b.events ++ h.events
  calls : h'.callsOf run = h.callsOf run

namespace Host.Answered

variable {run : Nat} {h b h' : Host} {outcome : Outcome}

/-- An entry that is about no listener and no call. -/
theorem noted (answered : Host.Answered run h b outcome h') {e : Entry} (event : e.event? = none)
    (call : e.call? run = none) :
    Host.Answered run h b outcome { h' with journal := e :: h'.journal } := by
  refine ⟨answered.bare, answered.bridges, answered.evaluations, ?_, ?_⟩
  · exact (List.filterMap_cons_none event).trans answered.events
  · exact (List.filterMap_cons_none call).trans answered.calls

theorem called (answered : Host.Answered run h b outcome h') (name : String) :
    Host.Made run h b [(name, outcome)]
      { h' with journal := .called run name outcome :: h'.journal } := by
  have taken : Entry.call? run (.called run name outcome) = some (name, outcome) := if_pos rfl
  refine ⟨answered.bare, answered.bridges, answered.evaluations, ?_, ?_⟩
  · exact (List.filterMap_cons_none rfl).trans answered.events
  · refine (List.filterMap_cons_some taken).trans ?_
    exact congrArg (List.cons (name, outcome)) answered.calls

/-- A call that did not get as far as the bridge. -/
theorem refused (run : Nat) (h : Host) {r : Raised} (other : r.fault.isOptionError = false) :
    Host.Answered run h h.bare (.error r) h := by
  refine ⟨rfl, rfl, ?_, rfl, rfl⟩
  have kept : (fun e : Evaluation => e.after (.error r)) = id := by
    funext e
    exact if_neg (Bool.eq_false_iff.mp other)
  rw [kept]
  exact (List.modify_id run h.evaluations).symm

end Host.Answered

namespace Site

variable {site : Site}

def invokeAccessor (site : Site) (c : OptionCall) : Act Value :=
  site.invoke (.accessor site.run c.accessor) c.args c.kwargs

theorem invokeAccessor_of_badNames {c : OptionCall}
    (bad : (c.kwargs.any fun e => !e.1.isText) = true) (h : Host) :
    site.invokeAccessor c h = some (.error ⟨.wrongType .keywordsNotText, none⟩, h) := by
  unfold invokeAccessor invoke
  refine (congrFun (if_pos bad) h).trans ?_
  exact fail_bind_apply _ _ h

theorem invokeAccessor_of_names {c : OptionCall}
    (named : ¬(c.kwargs.any fun e => !e.1.isText) = true) :
    site.invokeAccessor c = accessWithin site.respond site.run c.accessor c.args c.kwargs := by
  unfold invokeAccessor invoke
  exact if_neg named

/-- While an evaluation is under way, a call of an accessor by its engine comes to what it comes
to on a bridge. -/
theorem attempt_invokeAccessor (hr : site.respond.OnStore) {h : Host} (live : h.Live site.run)
    (c : OptionCall) :
    (c.plainly site.respond h.bare = none → attempt (site.invokeAccessor c) h = none) ∧
      ∀ outcome b, c.plainly site.respond h.bare = some (.ok outcome, b) →
        ∃ h', attempt (site.invokeAccessor c) h = some (.ok outcome, h') ∧
          Host.Answered site.run h b outcome h' := by
  unfold OptionCall.plainly
  simp only [attempt_apply]
  by_cases bad : (c.kwargs.any fun e => !e.1.isText) = true
  · rw [call_of_badNames bad, invokeAccessor_of_badNames bad]
    refine ⟨fun e => (by cases e), ?_⟩
    rintro outcome b ⟨⟩
    exact ⟨h, rfl, .refused site.run h rfl⟩
  · rw [invokeAccessor_of_names bad, accessWithin_apply hr live]
    have onStore := call_onStore hr true c.accessor c.args c.kwargs
    cases called :
      Bridge.call (storeAccess site.respond) true c.accessor c.args c.kwargs h.bare with
    | none => exact ⟨fun _ => rfl, fun _ _ e => (by cases e)⟩
    | some p =>
      refine ⟨fun e => (by cases e), ?_⟩
      rintro outcome b ⟨⟩
      refine ⟨_, rfl, ?_, rfl, rfl, ?_, ?_⟩
      · exact Host.bare_overlay (onStore.level_eq live.priv called)
      · exact (List.filterMap_cons_none rfl).trans (Host.events_overlay h p.2)
      · refine (List.filterMap_cons_none rfl).trans ?_
        exact Host.callsOf_overlay h (onStore.quiet h p.1 p.2 live.priv called) site.run

end Site

/-! ## Starlark -/

namespace Starlark

def make (site : Site) (_ : Nat) (c : OptionCall) : Act Outcome :=
  site.callNoted c.accessor.name (.accessor site.run c.accessor) false c.args c.kwargs

theorem make_books {site : Site} (hr : site.respond.OnStore) :
    Books site.respond site.run (make site) := by
  intro k c h live
  obtain ⟨lost, found⟩ := site.attempt_invokeAccessor hr live c
  refine ⟨fun e => bind_of_none (lost e), ?_⟩
  intro outcome b e
  obtain ⟨h', invoked, answered⟩ := found outcome b e
  refine ⟨_, ?_, answered.called c.accessor.name⟩
  exact (bind_of_ok invoked).trans (bind_of_ok (record_apply _ h'))

theorem drive_accessor {site : Site} {table : Table} {c : OptionCall}
    (found : table.lookup c.accessor.name = some (.function (.accessor site.run c.accessor) false))
    (snapshots : Nat) (yields : Bool) (next : Outcome → Behaviour) :
    drive site table yields (.calls c.accessor.name c.args c.kwargs next) =
      make site snapshots c >>= fun outcome => drive site table yields (next outcome) := by
  conv => lhs; unfold drive
  rw [found]
  rfl

end Starlark

/-! ## Monty -/

namespace Monty

theorem isConvertible_of_typed {o : OptionName} {v : Value} (typed : o.typed v = true) :
    isConvertible v = true := by
  cases v with
  | object name =>
    cases o with
    | breakAt => cases typed
    | _ => cases typed
  | _ => rfl

/-- A bridge gives back what the interpreter can take over. -/
theorem isConvertible_of_call {respond : Response} {attached : Bool} {a : Accessor}
    {args : List Value} {kwargs : Entries} {h h' : Host} {v : Value}
    (called : Bridge.call (storeAccess respond) attached a args kwargs h = some (.ok v, h')) :
    isConvertible v = true := by
  unfold Bridge.call at called
  cases bound : a.argument args kwargs with
  | error fault =>
    rw [bound] at called
    cases called
  | ok w =>
    rw [bound] at called
    cases a with
    | getter o =>
      obtain ⟨_, _, failed⟩ | ⟨_, h₁, _, read⟩ := bind_eq_some called
      · cases failed
      obtain ⟨_, _, failed⟩ | ⟨u, h₂, _, checked⟩ := bind_eq_some read
      · cases failed
      split at checked
      · rename_i typed
        cases checked
        exact isConvertible_of_typed typed
      · cases checked
    | setter o =>
      obtain ⟨_, _, failed⟩ | ⟨_, h₁, _, written⟩ := bind_eq_some called
      · cases failed
      cases written
      rfl

theorem isConvertible_of_accessWithin {respond : Response} {run : Nat} {a : Accessor}
    {args : List Value} {kwargs : Entries} {h h' : Host} {v : Value}
    (called : accessWithin respond run a args kwargs h = some (.ok v, h')) :
    isConvertible v = true := by
  obtain ⟨_, _, failed⟩ | ⟨e, h₁, _, within⟩ := bind_eq_some called
  · cases failed
  split at within
  · cases within
  · obtain ⟨_, _, failed⟩ | ⟨outcome, h₂, accessed, booked⟩ := bind_eq_some within
    · cases failed
    obtain ⟨_, _, failed⟩ | ⟨_, h₃, _, given⟩ := bind_eq_some booked
    · cases failed
    rw [ofOutcome_apply] at given
    cases given
    obtain ⟨_, same, access⟩ := attempt_eq_some accessed
    cases same
    obtain ⟨_, _, failed⟩ | ⟨attached, h₄, _, call⟩ := bind_eq_some access
    · cases failed
    exact isConvertible_of_call call

theorem isConvertible_of_invokeAccessor {site : Site} {c : OptionCall} {h h' : Host} {v : Value}
    (invoked : attempt (site.invokeAccessor c) h = some (.ok (.ok v), h')) :
    isConvertible v = true := by
  obtain ⟨_, same, called⟩ := attempt_eq_some invoked
  cases same
  by_cases bad : (c.kwargs.any fun e => !e.1.isText) = true
  · rw [Site.invokeAccessor_of_badNames bad] at called
    cases called
  · rw [Site.invokeAccessor_of_names bad] at called
    exact isConvertible_of_accessWithin called

/-- A call of an accessor by the engine, which resumes a snapshot with what came of it. -/
def make (site : Site) (snapshots : Nat) (c : OptionCall) : Act Outcome := do
  let outcome ← attempt (site.invokeAccessor c)
  resume site (snapshots + 1) false outcome
  record (.called site.run c.accessor.name outcome)
  return outcome

theorem make_books {site : Site} (hr : site.respond.OnStore) :
    Books site.respond site.run (make site) := by
  intro k c h live
  obtain ⟨lost, found⟩ := site.attempt_invokeAccessor hr live c
  refine ⟨fun e => bind_of_none (lost e), ?_⟩
  intro outcome b e
  obtain ⟨h', invoked, answered⟩ := found outcome b e
  have resumed := answered.noted (e := .resumed site.run (k + 1) false outcome) rfl rfl
  refine ⟨_, ?_, resumed.called c.accessor.name⟩
  exact (bind_of_ok invoked).trans
    ((bind_of_ok (record_apply _ h')).trans (bind_of_ok (record_apply _ _)))

/-- What came of a call of an accessor is what the snapshot is resumed with, once. -/
theorem answer_accessor {site : Site} {table : Table} {c : OptionCall}
    (found : table.lookup c.accessor.name = some (.function (.accessor site.run c.accessor) false))
    (snapshot : Nat) :
    answer site table snapshot c.accessor.name c.args c.kwargs = do
      let outcome ← attempt (site.invokeAccessor c)
      resume site snapshot false outcome
      return some outcome := by
  funext h
  unfold answer
  rw [found]
  cases invoked : attempt (site.invokeAccessor c) h with
  | none => exact (bind_of_none invoked).trans (bind_of_none invoked).symm
  | some p =>
    obtain ⟨out, h'⟩ := p
    obtain ⟨outcome, rfl⟩ := Settles.attempt _ invoked
    refine (bind_of_ok invoked).trans (Eq.trans ?_ (bind_of_ok invoked).symm)
    cases outcome with
    | error r => rfl
    | ok v =>
      have convertible := isConvertible_of_invokeAccessor invoked
      refine (bind_of_ok (record_apply _ h')).trans ?_
      exact congrFun (if_pos convertible) _

theorem drive_accessor {site : Site} {table : Table} {c : OptionCall}
    (found : table.lookup c.accessor.name = some (.function (.accessor site.run c.accessor) false))
    (snapshots : Nat) (after : Bool) (next : Outcome → Behaviour) :
    drive site table snapshots after (.calls c.accessor.name c.args c.kwargs next) =
      make site snapshots c >>= fun outcome =>
        drive site table (snapshots + 1) outcome.isOk (next outcome) := by
  conv => lhs; unfold drive
  rw [answer_accessor found]
  unfold make
  simp only [bind_assoc, pure_bind]

end Monty

end OptionHost
