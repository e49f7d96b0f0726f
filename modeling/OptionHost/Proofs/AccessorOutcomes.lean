import OptionHost.Proofs.AdmissionPaths

/-!
# What comes of a call

A call of an accessor comes to one of six ends, for the first reason that there is. The bridge is
detached; the value to be set is not of the option's type, or the value that is held is not; the
store is not ready; the value to be set is not the name of a class; or else the call is carried out.
This is so over any initial values, and also where nobody has checked them. The store refuses none
of the values that the bridge lets through. Two things come in between where a text cannot be
written: a value of another type that cannot be quoted is not rejected with a rejection, and a
setter whose value is in the store fails if the telling of the change breaks off.
-/

namespace OptionHost

open Act

/-! ## Rejections -/

theorem OptionName.isWritable_of_typed {o : OptionName} {v : Value} (typed : o.typed v = true) :
    v.isWritable = true := by
  cases v with
  | bool b => rfl
  | text s => rfl
  | _ => cases o <;> cases typed

namespace Bridge

variable {o : OptionName} {v : Value}

/-- A rejection quotes the value that it rejects. -/
theorem rejection_eq (o : OptionName) (v : Value) (reason : String) :
    rejection o v reason =
      if v.isWritable then .rejected (.text o.name) v (.text reason) else .unwritable := by
  have quoted : (ValueCause.invalidOption (.text o.name) v).message? =
      v.shown?.bind fun text => some s!"Invalid value for option '{o.name}': {text}" := rfl
  have said : (Fault.rejected (.text o.name) v (.text reason)).message?.isSome = v.isWritable := by
    change (Fault.rejectionText? (.text o.name) v (.text reason)).isSome = _
    unfold Fault.rejectionText?
    rw [quoted, Value.shown?]
    cases v.isWritable with
    | false => rfl
    | true =>
      rw [if_pos rfl, Option.bind_some]
      cases (Value.text reason).isTrue <;> rfl
  unfold rejection Fault.formed
  rw [said]

theorem rejection_of_writable (writable : v.isWritable = true) (reason : String) :
    rejection o v reason = .rejected (.text o.name) v (.text reason) := by
  rw [rejection_eq, if_pos writable]

/-- Why a write that was made is rejected all the same: the telling of it broke off. -/
def breakingOff : String := (Fault.unwritable.text?).getD ""

/-- What a setter fails of if the telling of its write broke off. -/
def cutShort (o : OptionName) (v : Value) : Raised :=
  ⟨.rejected (.text o.name) v (.text breakingOff), some .unwritable⟩

theorem reported_unwritable (typed : o.typed v = true) :
    reported o v Fault.unwritable = cutShort o v := by
  have said : (Fault.unwritable : Raised).text? = some breakingOff := rfl
  unfold reported cutShort
  rw [said]
  dsimp only
  rw [rejection_of_writable (OptionName.isWritable_of_typed typed)]

end Bridge

/-! ## Stores -/

namespace Store

variable {s t : Store} {classes : Entries} {o : OptionName} {v : Value}

/-- The table of classes is given once. -/
theorem Step.table {write : Option Change} (step : Step s write t) : t.classes = s.classes := by
  cases step with
  | start e => obtain ⟨_, rfl⟩ | ⟨_, _, _, _, _, rfl⟩ := start_cases e <;> rfl
  | close =>
    unfold Store.close
    split <;> rfl
  | write e =>
    obtain ⟨_, _, _, _, _, _, _, _, rfl, _⟩ := write_cases e
    rfl
  | register id => rfl
  | unregister e =>
    obtain rfl := unregister_eq_ok e
    rfl

/-- A store that has left its beginning and, while it is ready, has a value of the right type for an
option. -/
structure Consistent (o : OptionName) (s : Store) : Prop where
  begun : s.stage ≠ .uninitialized
  typed : ∀ values pattern, s.condition = .ready values pattern → o.typed (values.get o) = true

theorem Consistent.of_condition (consistent : s.Consistent o) (same : t.condition = s.condition) :
    t.Consistent o := by
  refine ⟨?_, same ▸ consistent.typed⟩
  rw [stage, same]
  exact consistent.begun

theorem ready_of_stage (ready : s.stage = .ready) :
    ∃ values pattern, s.condition = .ready values pattern := by
  unfold stage at ready
  cases condition : s.condition with
  | ready values pattern => exact ⟨values, pattern, rfl⟩
  | _ =>
    rw [condition] at ready
    cases ready

theorem get_of_ready {values : OptionValues} {pattern : Pattern}
    (ready : s.condition = .ready values pattern) : s.get (.text o.name) = .ok (values.get o) := by
  have required : s.require (.text o.name) = .ok (values, pattern) := by rw [require, ready]
  unfold Store.get
  rw [required, OptionName.ofValue_name]
  rfl

theorem typed_of_admits {option : Value} (named : OptionName.ofValue option = .ok o)
    (asked : s.admits option v = .ok true) : o.typed v = true := by
  obtain ⟨rfl, isText, -⟩ | ⟨other, isBool⟩ := admits_cases named asked
  · exact isText
  · cases o with
    | breakAt => exact absurd rfl other
    | wrap => exact isBool
    | lineBreak => exact isBool

theorem Step.consistent {write : Option Change} (step : Step s write t)
    (consistent : s.Consistent o) : t.Consistent o := by
  cases step with
  | start e =>
    obtain ⟨_, rfl⟩ | ⟨uninitialized, -⟩ := start_cases e
    · exact consistent
    · exact absurd uninitialized consistent.begun
  | close =>
    have closed := close_stage s
    refine ⟨by rw [closed]; decide, fun values pattern ready => ?_⟩
    rw [stage, ready] at closed
    cases closed
  | write e =>
    obtain ⟨values, pattern, name, pattern', ready, named, asked, _, rfl, _⟩ := write_cases e
    refine ⟨by rintro ⟨⟩, ?_⟩
    rintro _ _ ⟨⟩
    rw [OptionValues.get_set]
    split
    next same => exact same ▸ typed_of_admits named asked
    next => exact consistent.typed values pattern ready
  | register id => exact consistent.of_condition rfl
  | unregister e =>
    obtain rfl := unregister_eq_ok e
    exact consistent.of_condition rfl

end Store

namespace Host.Path

variable {h h' : Host}

theorem table (path : h.Path h') : h'.store.classes = h.store.classes := by
  induction path with
  | refl => rfl
  | tail _ move ih =>
    cases move with
    | stored step => exact step.table.trans ih
    | _ => exact ih

theorem classes_of_created {initial : OptionValues} {classes : Entries} {store : Store}
    (reached : (Host.ofStore store).Path h) (created : Store.create initial classes = .ok store) :
    h.store.classes = classes := by
  rw [reached.table, Store.create_eq_ok created]
  rfl

theorem consistent {o : OptionName} (path : h.Path h') (consistent : h.store.Consistent o) :
    h'.store.Consistent o := by
  induction path with
  | refl => exact consistent
  | tail _ move ih =>
    cases move with
    | stored step => exact step.consistent ih
    | _ => exact ih

end Host.Path

/-! ## Calls in steps -/

namespace Act

variable {respond : Response} {bridge : Nat} {o : OptionName} {v : Value} {h : Host}
  {args : List Value} {kwargs : Entries}

/-- A bridge asks the store as it is. -/
theorem storeAccess_get (respond : Response) (o : OptionName) (h : Host) :
    (storeAccess respond).get o h =
      some ((h.store.get (.text o.name)).mapError fun fault => ⟨fault, none⟩, h) :=
  ask_apply (·.get (.text o.name)) h

theorem access_detached (opened : h.bridges[bridge]? = some false) {a : Accessor}
    (given : a.argument args kwargs = .ok v) :
    access respond bridge a args kwargs h =
      some (.error ⟨.hostState (.detached a.option.name), none⟩, h) := by
  rw [access_eq false opened, Bridge.call, given]
  cases a <;> rfl

section Getter

variable (opened : h.bridges[bridge]? = some true)
  (given : (Accessor.getter o).argument args kwargs = .ok v)

include opened given

theorem access_get (respond : Response) {u : Value} (read : h.store.get (.text o.name) = .ok u) :
    access respond bridge (.getter o) args kwargs h =
      some (if o.typed u then .ok u
        else .error ⟨.hostState (.inconsistent o.name u.typeName o.valueType), none⟩, h) := by
  have asked := storeAccess_get respond o h
  rw [read] at asked
  have came : Bridge.get (storeAccess respond) true o h =
      some (if o.typed u then .ok u
        else .error ⟨.hostState (.inconsistent o.name u.typeName o.valueType), none⟩, h) := by
    unfold Bridge.get
    rw [bind_of_ok (require_attached o h), bind_of_ok asked]
    split <;> rfl
  rw [access_eq true opened, Bridge.call, given]
  exact came

theorem access_get_of_error (respond : Response) {fault : Fault}
    (refused : h.store.get (.text o.name) = .error fault) :
    access respond bridge (.getter o) args kwargs h = some (.error ⟨fault, none⟩, h) := by
  have asked := storeAccess_get respond o h
  rw [refused] at asked
  have failed : Bridge.get (storeAccess respond) true o h = some (.error ⟨fault, none⟩, h) := by
    unfold Bridge.get
    rw [bind_of_ok (require_attached o h), bind_of_error asked]
  rw [access_eq true opened, Bridge.call, given]
  exact failed

end Getter

section Setter

variable (opened : h.bridges[bridge]? = some true)
  (given : (Accessor.setter o).argument args kwargs = .ok v)

include opened given

theorem access_of_set_error {r : Raised} {h' : Host}
    (set : Bridge.set (storeAccess respond) true o v h = some (.error r, h')) :
    access respond bridge (.setter o) args kwargs h = some (.error r, h') := by
  rw [access_eq true opened, Bridge.call, given]
  exact bind_of_error set

/-- A value that cannot be quoted cannot be rejected as such. -/
theorem access_mistyped (mistyped : o.typed v = false) :
    access respond bridge (.setter o) args kwargs h =
      some (.error ⟨if v.isWritable then
          .rejected (.text o.name) v (.text ("expected " ++ o.valueType)) else .unwritable, none⟩,
        h.saying (Bridge.rejectionRecord o v "wrong type")) := by
  rw [← Bridge.rejection_eq]
  refine access_of_set_error opened given ?_
  unfold Bridge.set
  rw [bind_of_ok (require_attached o h)]
  dsimp only
  rw [if_pos (by simp [mistyped])]
  exact bind_of_ok (say_saying _ h)

theorem access_unknown (typed : o.typed v = true) (enumerated : o.isEnumerated = true)
    (unknown : h.store.admits (.text o.name) v = .ok false) :
    access respond bridge (.setter o) args kwargs h =
      some (.error ⟨.rejected (.text o.name) v (.text "not an allowed value"), none⟩,
        h.saying (Bridge.rejectionRecord o v "not an allowed value")) := by
  rw [← Bridge.rejection_of_writable (OptionName.isWritable_of_typed typed)]
  have asked := storeAccess_admits respond o v h
  rw [unknown] at asked
  refine access_of_set_error opened given ?_
  unfold Bridge.set
  rw [bind_of_ok (require_attached o h)]
  dsimp only
  rw [if_neg (by simp [typed]), if_pos enumerated, bind_of_ok asked]
  exact bind_of_ok (say_saying _ h)

/-- A store that is not ready refuses to say what it admits, and refuses the write. -/
theorem access_idle (typed : o.typed v = true) (idle : h.store.stage ≠ .ready) :
    access respond bridge (.setter o) args kwargs h =
      some (.error ⟨.hostState (.notReady h.store.stage (.text o.name)), none⟩, h) := by
  have written : h.store.write (.text o.name) v =
      .error (.hostState (.notReady h.store.stage (.text o.name))) :=
    Store.require_bind_of_not_ready idle _ _
  by_cases enumerated : o.isEnumerated = true
  · have asked := storeAccess_admits respond o v h
    rw [Store.admits, Store.require_bind_of_not_ready idle] at asked
    refine access_of_set_error opened given ?_
    unfold Bridge.set
    rw [bind_of_ok (require_attached o h)]
    dsimp only
    rw [if_neg (by simp [typed]), if_pos enumerated, bind_of_error asked]
  · rw [access_of_passed opened given typed fun enumerated' => absurd enumerated' enumerated,
      setOption_of_refused written]
    rfl

/-- What comes of a setter that is let through, by what comes of telling the registered parties. -/
def settled (o : OptionName) (v : Value) : Except Raised Unit × Host → Outcome × Host
  | (.ok _, h) => (.ok .null, h.saying (Bridge.setRecord o v))
  | (.error _, h) => (.error (Bridge.cutShort o v), h)

/-- A value that the store takes is written, and all that follows is told and said, unless the
telling breaks off. -/
theorem access_taken {change : Change} {t : Store} (typed : o.typed v = true)
    (asked : h.store.admits (.text o.name) v = .ok true)
    (taken : h.store.write (.text o.name) v = .ok (change, t)) :
    access respond bridge (.setter o) args kwargs h =
      ((h.store.audience change).forM (tell respond change) (h.written change t)).map
        (settled o v) := by
  rw [access_of_passed opened given typed fun _ => asked, setOption_of_taken taken]
  refine Option.map_congr fun p came => ?_
  obtain ⟨out, h'⟩ := p
  obtain rfl | ⟨rfl, -⟩ := forM_tell_outcome came
  · rfl
  · rw [settled, ← Bridge.reported_unwritable typed]
    rfl

end Setter

end Act

/-! ## All calls -/

/-- A value is one that the policy of the host allows an option to be, if it is of the type: any
truth value, or the name of a class. -/
def OptionName.Allows (classes : Entries) (v : Value) (o : OptionName) : Prop :=
  o.isEnumerated = true → ∃ chars, classes.get? v = some chars

namespace Store

variable {s : Store} {classes : Entries} {values : OptionValues} {pattern : Pattern}
  {o : OptionName} {v : Value}

/-- What a bridge lets through to a ready store is taken. -/
theorem write_of_allowed (textual : s.classes.Textual) (ready : s.condition = .ready values pattern)
    (typed : o.typed v = true) (allows : o.Allows s.classes v) :
    s.admits (.text o.name) v = .ok true ∧ ∃ pattern', s.write (.text o.name) v =
      .ok (⟨o, values.get o, v⟩, { s with condition := .ready (values.set v o) pattern' }) := by
  have takes : o.Takes s.classes v := by
    cases o with
    | wrap => exact typed
    | lineBreak => exact typed
    | breakAt =>
      obtain ⟨chars, found⟩ := allows rfl
      obtain ⟨text, rfl⟩ := textual.get? found
      exact ⟨typed, .text text, _, found, rfl⟩
  refine ⟨admits_of_takes ready takes, ?_⟩
  obtain ⟨⟨change, t⟩, taken⟩ := (write_iff_takes ready).mpr takes
  obtain ⟨values', _, name, pattern', ready', named, _, rfl, rfl, _⟩ := write_cases taken
  cases ready.symm.trans ready'
  cases (OptionName.ofValue_name o).symm.trans named
  exact ⟨pattern', taken⟩

theorem admits_of_unknown (ready : s.condition = .ready values pattern)
    (enumerated : o.isEnumerated = true) (unknown : ∀ chars, s.classes.get? v ≠ some chars) :
    s.admits (.text o.name) v = .ok false := by
  have required : s.require (.text o.name) = .ok (values, pattern) := by rw [require, ready]
  have absent : Entries.contains v s.classes = false := by
    rw [Entries.contains, Option.eq_none_iff_forall_ne_some.mpr unknown]
    rfl
  cases o with
  | breakAt =>
    unfold admits
    rw [required]
    refine congrArg Except.ok ?_
    rw [absent, Bool.and_false]
  | wrap => cases enumerated
  | lineBreak => cases enumerated

theorem allows_of_admits (enumerated : o.isEnumerated = true)
    (asked : s.admits (.text o.name) v = .ok true) : ∃ chars, s.classes.get? v = some chars := by
  obtain ⟨-, -, known⟩ | ⟨other, -⟩ := admits_cases (OptionName.ofValue_name o) asked
  · exact known
  · cases o with
    | breakAt => exact absurd rfl other
    | wrap => cases enumerated
    | lineBreak => cases enumerated

end Store

/-- What comes of a setter that is let through: the value is in the store, all registered parties
are told, and then it is noted by the bridge. If the telling breaks off, the setter fails although
the value is in the store. From the write on, the option is of its type. -/
structure Host.Accepts (h : Host) (respond : Response) (bridge : Nat) (o : OptionName)
    (args : List Value) (kwargs : Entries) (change : Change) (t : Store) : Prop where
  told : access respond bridge (.setter o) args kwargs h =
    ((h.store.audience change).forM (tell respond change) (h.written change t)).map
      (settled o change.new)
  /-- It ends unless the responses of listeners never end, and fails only if the telling breaks
  off, -/
  ends : ∀ calm, respond.Ends calm → calm h.listeners → ∃ out h',
    access respond bridge (.setter o) args kwargs h = some (out, h') ∧
      (out = .ok .null ∨ out = .error (Bridge.cutShort o change.new) ∧ BrokeOff respond change h')
  /-- which it does not if every failure of a listener has a text. -/
  returns : ∀ calm, respond.Ends calm → Outspoken calm respond → calm h.listeners → ∃ h',
    access respond bridge (.setter o) args kwargs h = some (.ok .null, h')
  read : access respond bridge (.getter o) [] [] (h.written change t) =
    some (.ok change.new, h.written change t)
  reached : respond.Along Host.Path → ∀ out h',
    access respond bridge (.setter o) args kwargs h = some (out, h') → (h.written change t).Path h'
  healed : ∀ h', (h.written change t).Path h' → ∀ values pattern,
    h'.store.condition = .ready values pattern → o.typed (values.get o) = true

/-- What comes of the calls through a bridge. All calls have the arguments that they need, `v` being
the value for a setter. -/
structure Host.Answers (classes : Entries) (bridge : Nat) (h : Host) : Prop where
  detached : h.bridges[bridge]? = some false → ∀ respond a args kwargs v,
    a.argument args kwargs = .ok v → access respond bridge a args kwargs h =
      some (.error ⟨.hostState (.detached a.option.name), none⟩, h)
  /-- A getter of an attached bridge reads the store, -/
  absent : h.bridges[bridge]? = some true → h.store.stage ≠ .ready →
    ∀ respond o args kwargs v, (Accessor.getter o).argument args kwargs = .ok v →
      access respond bridge (.getter o) args kwargs h =
        some (.error ⟨.hostState (.notReady h.store.stage (.text o.name)), none⟩, h)
  /-- which may hold values that nobody has checked. -/
  held : h.bridges[bridge]? = some true → ∀ values pattern,
    h.store.condition = .ready values pattern →
      ∀ respond o args kwargs v, (Accessor.getter o).argument args kwargs = .ok v →
        access respond bridge (.getter o) args kwargs h =
          some (if o.typed (values.get o) then .ok (values.get o)
            else .error ⟨.hostState
              (.inconsistent o.name (values.get o).typeName o.valueType), none⟩, h)
  /-- A setter checks the type before anything else; a value that has no text is not rejected with
  one, -/
  mistyped : h.bridges[bridge]? = some true → ∀ respond o args kwargs v,
    (Accessor.setter o).argument args kwargs = .ok v → o.typed v = false →
      access respond bridge (.setter o) args kwargs h =
        some (.error ⟨if v.isWritable then
            .rejected (.text o.name) v (.text ("expected " ++ o.valueType)) else .unwritable, none⟩,
          h.saying (Bridge.rejectionRecord o v "wrong type"))
  /-- then whether the store is ready, -/
  idle : h.bridges[bridge]? = some true → h.store.stage ≠ .ready →
    ∀ respond o args kwargs v, (Accessor.setter o).argument args kwargs = .ok v →
      o.typed v = true → access respond bridge (.setter o) args kwargs h =
        some (.error ⟨.hostState (.notReady h.store.stage (.text o.name)), none⟩, h)
  /-- then the policy. -/
  unknown : h.bridges[bridge]? = some true → h.store.stage = .ready →
    ∀ respond o args kwargs v, (Accessor.setter o).argument args kwargs = .ok v →
      o.typed v = true → ¬o.Allows classes v → access respond bridge (.setter o) args kwargs h =
        some (.error ⟨.rejected (.text o.name) v (.text "not an allowed value"), none⟩,
          h.saying (Bridge.rejectionRecord o v "not an allowed value"))
  committed : h.bridges[bridge]? = some true → ∀ values pattern,
    h.store.condition = .ready values pattern →
      ∀ respond o args kwargs v, (Accessor.setter o).argument args kwargs = .ok v →
        o.typed v = true → o.Allows classes v → ∃ pattern',
          h.Accepts respond bridge o args kwargs ⟨o, values.get o, v⟩
            { h.store with condition := .ready (values.set v o) pattern' }

namespace Host

variable {classes : Entries} {h : Host} {bridge : Nat} {o : OptionName} {v : Value}

theorem saying_path (r : Record) (h : Host) : h.Path (h.saying r) := by
  unfold saying sayEntries
  split
  · exact .single (.noted (.logged r) rfl)
  · exact .refl

theorem accepts (textual : h.store.classes.Textual) (opened : h.bridges[bridge]? = some true)
    {values : OptionValues} {pattern : Pattern} (ready : h.store.condition = .ready values pattern)
    (respond : Response) {args : List Value} {kwargs : Entries}
    (given : (Accessor.setter o).argument args kwargs = .ok v) (typed : o.typed v = true)
    (allows : o.Allows h.store.classes v) : ∃ pattern',
      h.Accepts respond bridge o args kwargs ⟨o, values.get o, v⟩
        { h.store with condition := .ready (values.set v o) pattern' } := by
  obtain ⟨asked, pattern', taken⟩ := Store.write_of_allowed textual ready typed allows
  have told : access respond bridge (.setter o) args kwargs h = _ :=
    access_taken opened given typed asked taken
  have consistent : Store.Consistent o
      { h.store with condition := .ready (values.set v o) pattern' } := by
    refine ⟨by rintro ⟨⟩, ?_⟩
    rintro _ _ ⟨⟩
    rw [OptionValues.get_set, if_pos rfl]
    exact typed
  refine ⟨pattern', told, ?_, ?_, ?_, ?_, ?_⟩
  · intro calm ends listening
    obtain ⟨out, h', e⟩ := (access_ends ends bridge (.setter o) args kwargs).result listening
    refine ⟨out, h', e, ?_⟩
    rw [told] at e
    obtain ⟨⟨_, _⟩, heard, came⟩ := Option.map_eq_some_iff.mp e
    obtain rfl | ⟨rfl, brokeOff⟩ := forM_tell_outcome heard
    · cases came
      exact .inl rfl
    · cases came
      exact .inr ⟨rfl, brokeOff⟩
  · intro calm ends outspoken listening
    obtain ⟨out, h', e⟩ := (access_ends ends bridge (.setter o) args kwargs).result listening
    rw [told] at e
    obtain ⟨⟨_, _⟩, heard, came⟩ := Option.map_eq_some_iff.mp e
    obtain rfl := forM_tell_ok ends outspoken (h := h.written _ _) listening heard
    cases came
    exact ⟨_, told.trans e⟩
  · have argument : (Accessor.getter o).argument [] [] = .ok .null := by cases o <;> rfl
    have came := access_get (h := h.written ⟨o, values.get o, v⟩
      { h.store with condition := .ready (values.set v o) pattern' }) opened argument
      respond (Store.get_of_ready rfl)
    rw [OptionValues.get_set, if_pos rfl, if_pos typed] at came
    exact came
  · intro along out h' e
    rw [told] at e
    obtain ⟨⟨ended, h₁⟩, heard, came⟩ := Option.map_eq_some_iff.mp e
    have path := (forM_tell_telling along _ _ heard).path
    cases ended with
    | ok _ =>
      cases came
      exact path.trans (saying_path _ h₁)
    | error _ =>
      cases came
      exact path
  · intro h' path values' pattern'' ready'
    exact (path.consistent consistent).typed values' pattern'' ready'

/-- A write was made, and then the telling of it broke off. -/
def Overruled (respond : Response) (o : OptionName) (v : Value) (h h' : Host) : Prop :=
  ∃ change t, h.store.write (.text o.name) v = .ok (change, t) ∧ BrokeOff respond change h'

/-- Of a value that was let through to it the store says that it is wrong only if it has taken it,
and the telling broke off. -/
theorem wrongValue_iff_of_passed (textual : h.store.classes.Textual) {respond : Response}
    (typed : o.typed v = true)
    (asked : o.isEnumerated = true → h.store.admits (.text o.name) v = .ok true) {r : Raised}
    {h' : Host} (e : setOption respond (.text o.name) v h = some (.error r, h')) :
    r.fault.isWrongValue = true ↔ h.Overruled respond o v h' := by
  by_cases idle : h.store.stage ≠ .ready
  · have refused : h.store.write (.text o.name) v = .error _ :=
      Store.require_bind_of_not_ready idle _ _
    rw [setOption_of_refused refused] at e
    cases e
    refine ⟨by rintro ⟨⟩, ?_⟩
    rintro ⟨_, _, taken, -⟩
    cases refused.symm.trans taken
  · obtain ⟨values, pattern, ready⟩ := Store.ready_of_stage (not_not.mp idle)
    obtain ⟨-, _, taken⟩ := Store.write_of_allowed textual ready typed fun enumerated =>
      Store.allows_of_admits enumerated (asked enumerated)
    obtain impossible | ⟨same, brokeOff⟩ := setOption_of_written taken e
    · cases impossible
    · cases same
      exact ⟨fun _ => ⟨_, _, taken, brokeOff⟩, fun _ => rfl⟩

/-- What a call of an accessor can fail of: that the host is in the wrong state; that the value is
not allowed, if that can be said of it, or else that it cannot be said; and that the telling of a
write broke off. -/
inductive Fails (respond : Response) (a : Accessor) (v : Value) (h h' : Host) : Raised → Prop where
  | state (cause : HostStateCause) : Fails respond a v h h' ⟨.hostState cause, none⟩
  | rejected (reason : String) :
    Fails respond a v h h' ⟨.rejected (.text a.option.name) v (.text reason), none⟩
  | unwritable (long : v.isWritable = false) : Fails respond a v h h' ⟨.unwritable, none⟩
  | cut {o : OptionName} (setter : a = .setter o) (overruled : h.Overruled respond o v h') :
    Fails respond a v h h' (Bridge.cutShort o v)

/-- Nothing else is raised. -/
theorem Answers.raised (answers : h.Answers classes bridge) (textual : h.store.classes.Textual)
    (table : h.store.classes = classes) {attached : Bool}
    (opened : h.bridges[bridge]? = some attached) {respond : Response} {a : Accessor}
    {args : List Value} {kwargs : Entries} (given : a.argument args kwargs = .ok v) {r : Raised}
    {h' : Host} (e : access respond bridge a args kwargs h = some (.error r, h')) :
    Fails respond a v h h' r := by
  cases attached with
  | false =>
    rw [answers.detached opened respond a args kwargs v given] at e
    cases e
    exact .state _
  | true =>
    cases a with
    | getter o =>
      by_cases ready : h.store.stage = .ready
      · obtain ⟨values, pattern, ready⟩ := Store.ready_of_stage ready
        rw [answers.held opened values pattern ready respond o args kwargs v given] at e
        split at e <;> cases e
        exact .state _
      · rw [answers.absent opened ready respond o args kwargs v given] at e
        cases e
        exact .state _
    | setter o =>
      by_cases typed : o.typed v = true
      · by_cases ready : h.store.stage = .ready
        · by_cases allows : o.Allows classes v
          · obtain ⟨values, pattern, ready⟩ := Store.ready_of_stage ready
            obtain ⟨-, _, taken⟩ := Store.write_of_allowed textual ready typed (table ▸ allows)
            obtain ⟨_, accepts⟩ := answers.committed opened values pattern ready respond o args
              kwargs v given typed allows
            rw [accepts.told] at e
            obtain ⟨⟨ended, h₁⟩, heard, came⟩ := Option.map_eq_some_iff.mp e
            obtain rfl | ⟨rfl, brokeOff⟩ := forM_tell_outcome heard
            · cases came
            · cases came
              exact .cut rfl ⟨_, _, taken, brokeOff⟩
          · rw [answers.unknown opened ready respond o args kwargs v given typed allows] at e
            cases e
            exact .rejected _
        · rw [answers.idle opened ready respond o args kwargs v given typed] at e
          cases e
          exact .state _
      · rw [answers.mistyped opened respond o args kwargs v given (Bool.of_not_eq_true typed)] at e
        cases e
        split
        · exact .rejected _
        · exact .unwritable (Bool.of_not_eq_true ‹_›)

theorem answers {initial : OptionValues} {store : Store} (textual : classes.Textual)
    (created : Store.create initial classes = .ok store) (reached : (Host.ofStore store).Path h)
    (bridge : Nat) : h.Answers classes bridge := by
  obtain rfl := reached.classes_of_created created
  refine ⟨?detached, ?absent, ?held, ?mistyped, ?idle, ?unknown, ?committed⟩
  case detached => exact fun opened _ _ _ _ _ given => access_detached opened given
  case absent =>
    intro opened idle respond o args kwargs v given
    exact access_get_of_error opened given respond (Store.require_bind_of_not_ready idle _ _)
  case held =>
    intro opened values pattern ready respond o args kwargs v given
    exact access_get opened given respond (Store.get_of_ready ready)
  case mistyped => exact fun opened _ _ _ _ _ given => access_mistyped opened given
  case idle => exact fun opened idle _ _ _ _ _ given typed => access_idle opened given typed idle
  case unknown =>
    intro opened ready respond o args kwargs v given typed refused
    obtain ⟨values, pattern, ready⟩ := Store.ready_of_stage ready
    obtain ⟨enumerated, unknown⟩ := Classical.not_imp.mp refused
    exact access_unknown opened given typed enumerated
      (Store.admits_of_unknown ready enumerated (not_exists.mp unknown))
  case committed =>
    intro opened values pattern ready respond o args kwargs v given typed allows
    exact accepts textual opened ready respond given typed allows

/-- Over a table of texts none of which is empty, whatever the initial values are, a call through
a bridge of any host that is reached has the end that the first reason gives it. It fails with
nothing else. What is let through to the store is refused there as a wrong value only once it has
been written and the telling of it broke off. -/
theorem calls_decided {initial : OptionValues} {store : Store} (textual : classes.Textual)
    (created : Store.create initial classes = .ok store) (reached : (Host.ofStore store).Path h)
    (bridge : Nat) :
    h.Answers classes bridge ∧
      (∀ attached, h.bridges[bridge]? = some attached → ∀ respond a args kwargs v,
        a.argument args kwargs = .ok v → ∀ r h',
          access respond bridge a args kwargs h = some (.error r, h') →
            Fails respond a v h h' r) ∧
      (∀ respond (o : OptionName) v, o.typed v = true →
        (o.isEnumerated = true → h.store.admits (.text o.name) v = .ok true) → ∀ r h',
          setOption respond (.text o.name) v h = some (.error r, h') →
            (r.fault.isWrongValue = true ↔ h.Overruled respond o v h')) ∧
      (h.level = .debug → ∀ r, (h.saying r).journal =
        if r.text.isSome then .logged r :: h.journal else h.journal) := by
  have answers := answers textual created reached bridge
  have table := reached.classes_of_created created
  refine ⟨answers, ?_, ?_, ?_⟩
  · exact fun _ opened _ _ _ _ _ given _ _ e =>
      answers.raised (table ▸ textual) table opened given e
  · exact fun _ _ _ typed asked _ _ e => wrongValue_iff_of_passed (table ▸ textual) typed asked e
  · intro level r
    have admitted : h.level.admits r.level = true := by
      rw [level]
      cases r.level <;> rfl
    rw [saying, sayEntries, admitted, Bool.true_and]
    split <;> rfl

/-- Initial values that nobody has checked: a number stands where a truth value is meant. -/
def unchecked : OptionValues := ⟨.int 1, .bool false, .text "ascii"⟩

/-- The number is found out by the getter, and any truth value takes its place. A number that is too
long to be quoted is refused without a rejection. -/
theorem calls_decided_unchecked :
    ∃ store replies h, Store.create unchecked builtinClasses = .ok store ∧
      Session.steps 1 Store.opening (Host.ofStore store) = some (replies, h) ∧
      access (Session.respond 1) 0 (.getter .wrap) [] [] h =
        some (.error ⟨.hostState (.inconsistent "wrap" "int" "bool"), none⟩, h) ∧
      access (Session.respond 1) 0 (.setter .breakAt) [.text "wide"] [] h =
        some (.error ⟨.rejected (.text "break_at") (.text "wide") (.text "not an allowed value"),
          none⟩, h.saying (Bridge.rejectionRecord .breakAt (.text "wide") "not an allowed value")) ∧
      access (Session.respond 1) 0 (.setter .wrap) [.int Value.overlong] [] h =
        some (.error ⟨.unwritable, none⟩,
          h.saying (Bridge.rejectionRecord .wrap (.int Value.overlong) "wrong type")) ∧
      ∃ h', access (Session.respond 1) 0 (.setter .wrap) [.bool true] [] h =
          some (.ok .null, h') ∧ ∀ values pattern, h'.store.condition = .ready values pattern →
        OptionName.wrap.typed values.wrap = true := by
  let store : Store := ⟨unchecked, builtinClasses, .uninitialized, []⟩
  have created : Store.create unchecked builtinClasses = .ok store := rfl
  have ran : ∃ pattern, ((Session.steps 1 Store.opening (Host.ofStore store)).map fun p =>
      (p.2.bridges, p.2.store.condition, p.2.listeners)) = some ([true], .ready unchecked pattern,
        [("failing", fun _ => .raises ⟨.foreign "RuntimeError" "heard", none⟩)]) := ⟨_, rfl⟩
  obtain ⟨pattern, ran⟩ := ran
  obtain ⟨⟨replies, h⟩, run, state⟩ := Option.map_eq_some_iff.mp ran
  obtain ⟨bridges, ready, listeners⟩ : h.bridges = [true] ∧
      h.store.condition = .ready unchecked pattern ∧ h.listeners = _ := by simpa using state
  have opened : h.bridges[0]? = some true := by rw [bridges]; rfl
  have frank : Store.Frank h.listeners := by
    rw [listeners]
    rintro e member change
    obtain rfl := List.mem_singleton.mp member
    exact ⟨rfl, by rintro r ⟨⟩ ⟨⟩⟩
  obtain ⟨answers, -⟩ :=
    calls_decided builtinClasses_textual created (Session.steps_path run) 0
  have stage : h.store.stage = .ready := by rw [Store.stage, ready]; rfl
  refine ⟨store, replies, h, created, run, ?_, ?_, ?_, ?_⟩
  · exact answers.held opened unchecked pattern ready _ .wrap [] [] .null rfl
  · refine answers.unknown opened stage _ .breakAt [.text "wide"] [] (.text "wide") rfl rfl ?_
    intro allows
    obtain ⟨_, found⟩ := allows rfl
    cases found
  · have refused := answers.mistyped opened (Session.respond 1) .wrap [.int Value.overlong] []
      (.int Value.overlong) rfl rfl
    rwa [Value.isWritable_overlong] at refused
  · obtain ⟨_, accepts⟩ := answers.committed opened unchecked pattern ready (Session.respond 1)
      .wrap [.bool true] [] (.bool true) rfl rfl (by rintro ⟨⟩)
    obtain ⟨h', came⟩ := accepts.returns Store.Frank
      (Session.respond_ends_of (fun _ => Store.Frank.inert) 0) (Store.respond_outspoken 0) frank
    exact ⟨h', came, accepts.healed h' (accepts.reached (Session.respond_byMoves 1) _ h' came)⟩

end Host

end OptionHost
