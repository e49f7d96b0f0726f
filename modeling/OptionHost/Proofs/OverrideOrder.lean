import OptionHost.Proofs.EntryOrder
import OptionHost.Proofs.Overriding

/-!
# Overrides in any order

Overrides write the values that an environment gives, one after the other, up to the first that
cannot be written. As long as no path is the beginning of another one they do not get in each
other's way: in any order they fail alike or else give the same data, but for the order of entries,
and a second time they change nothing. Overrides without a value count for nothing.
-/

namespace OptionHost

namespace Value

/-! ## Several values -/

/-- Values written one after the other, up to the first that is refused. -/
def writeAll : List (KeyPath × Value) → Value → Written
  | [], data => ⟨data, none⟩
  | w :: rest, data =>
    let first := w.2.write w.1 data
    match first.fault with
    | none => writeAll rest first.data
    | some _ => first

variable {a b data : Value} {w : KeyPath × Value} {writes others : List (KeyPath × Value)}
  {path : KeyPath}

/-- No two of the paths are the same or the one the beginning of the other. -/
def AllApart (writes : List (KeyPath × Value)) : Prop :=
  writes.Pairwise fun v w => v.1.Apart w.1

theorem AllApart.perm (apart : AllApart writes) (perm : writes.Perm others) : AllApart others :=
  (perm.pairwise_iff fun apart => apart.symm).mp apart

theorem writeAll_cons (fine : (w.2.write w.1 data).fault = none) :
    writeAll (w :: writes) data = writeAll writes (w.2.write w.1 data).data := by
  simp only [writeAll, fine]

theorem writeAll_cons_of_fault (refused : (w.2.write w.1 data).fault ≠ none) :
    writeAll (w :: writes) data = w.2.write w.1 data := by
  obtain ⟨fault, came⟩ := Option.ne_none_iff_exists'.mp refused
  simp only [writeAll, came]

theorem at?_writeAll_of_apart (apart : ∀ w ∈ writes, w.1.Apart path) (data : Value) :
    (writeAll writes data).data.at? path = data.at? path := by
  induction writes generalizing data with
  | nil => rfl
  | cons w rest ih =>
    have here := at?_write_of_apart (apart w (by simp)) w.2 data
    by_cases fine : (w.2.write w.1 data).fault = none
    · rw [writeAll_cons fine, ih fun w mem => apart w (by simp [mem]), here]
    · rw [writeAll_cons_of_fault fine, here]

/-- Values can be written unless the data obstruct one of their paths from the beginning. -/
theorem writeAll_fault_eq_none_iff (apart : AllApart writes) (data : Value) :
    (writeAll writes data).fault = none ↔ ∀ w ∈ writes, ¬data.Obstructs w.1.keys := by
  induction writes generalizing data with
  | nil => simp [writeAll]
  | cons w rest ih =>
    obtain ⟨others, apart⟩ := List.pairwise_cons.mp apart
    rw [List.forall_mem_cons, ← write_fault_eq_none_iff w.2]
    by_cases fine : (w.2.write w.1 data).fault = none
    · rw [writeAll_cons fine, ih apart, and_iff_right fine]
      exact forall₂_congr fun v mem => not_congr (obstructs_write_of_apart (others v mem) w.2 data)
    · rw [writeAll_cons_of_fault fine]
      exact iff_of_false fine fun both => fine both.1

/-- The same values written once more leave everything as it is. -/
theorem writeAll_writeAll (apart : AllApart writes) (data : Value) :
    writeAll writes (writeAll writes data).data = writeAll writes data := by
  induction writes generalizing data with
  | nil => rfl
  | cons w rest ih =>
    obtain ⟨others, apart⟩ := List.pairwise_cons.mp apart
    by_cases fine : (w.2.write w.1 data).fault = none
    · have there : (writeAll rest (w.2.write w.1 data).data).data.at? w.1 = some w.2 := by
        rw [at?_writeAll_of_apart fun v mem => (others v mem).symm,
          at?_write ((write_fault_eq_none_iff w.2 w.1 data).mp fine)]
      have again := write_of_at? there
      rw [writeAll_cons fine, writeAll_cons (by rw [again]), again, ih apart]
    · have obstructs : data.Obstructs w.1.keys :=
        not_not.mp fun free => fine ((write_fault_eq_none_iff w.2 w.1 data).mpr free)
      rw [writeAll_cons_of_fault fine, write_data_of_obstructs obstructs,
        writeAll_cons_of_fault fine]

theorem Reordered.writeAll (reordered : a.Reordered b) (writes : List (KeyPath × Value)) :
    (writeAll writes a).data.Reordered (writeAll writes b).data := by
  induction writes generalizing a b with
  | nil => exact reordered
  | cons w rest ih =>
    obtain ⟨first, fault⟩ := reordered.write w.2 w.1
    by_cases fine : (w.2.write w.1 a).fault = none
    · rw [writeAll_cons fine, writeAll_cons (fault.symm.trans fine)]
      exact ih first
    · rw [writeAll_cons_of_fault fine, writeAll_cons_of_fault fun none => fine (fault.trans none)]
      exact first

/-- Values whose paths are apart may be written in any order. -/
theorem reordered_writeAll (apart : AllApart writes) (perm : writes.Perm others)
    (fine : (writeAll writes data).fault = none) :
    (writeAll writes data).data.Reordered (writeAll others data).data := by
  induction perm generalizing data with
  | nil => exact .refl _
  | cons w perm ih =>
    have apart' := (List.pairwise_cons.mp apart).2
    by_cases first : (w.2.write w.1 data).fault = none
    · rw [writeAll_cons first] at fine ⊢
      rw [writeAll_cons first]
      exact ih apart' fine
    · rw [writeAll_cons_of_fault first] at fine
      exact absurd fine first
  | swap w v rest =>
    have free := (writeAll_fault_eq_none_iff apart data).mp fine
    have parted : v.1.Apart w.1 := (List.pairwise_cons.mp apart).1 w (by simp)
    have first : (v.2.write v.1 data).fault = none :=
      (write_fault_eq_none_iff _ _ _).mpr (free v (by simp))
    have second : (w.2.write w.1 data).fault = none :=
      (write_fault_eq_none_iff _ _ _).mpr (free w (by simp))
    have first' : (v.2.write v.1 (w.2.write w.1 data).data).fault = none := by
      rw [write_fault_eq_none_iff, obstructs_write_of_apart parted.symm]
      exact free v (by simp)
    have second' : (w.2.write w.1 (v.2.write v.1 data).data).fault = none := by
      rw [write_fault_eq_none_iff, obstructs_write_of_apart parted]
      exact free w (by simp)
    rw [writeAll_cons first, writeAll_cons second', writeAll_cons second, writeAll_cons first']
    exact (reordered_write_write parted v.2 w.2 data).writeAll rest
  | trans perm _ ih ih' =>
    have apart' := apart.perm perm
    refine .trans (ih apart fine) (ih' apart' ?_)
    rw [writeAll_fault_eq_none_iff apart] at fine
    rw [writeAll_fault_eq_none_iff apart']
    exact fun w mem => fine w (perm.mem_iff.mpr mem)

end Value

/-! ## Overrides -/

namespace Override

variable {env : Environment} {o : Override} {os others : List Override} {data : Value}

/-- What overrides have to write under an environment, each value with its path. -/
def writes (env : Environment) (os : List Override) : List (KeyPath × Value) :=
  os.filterMap fun o => (o.given? env).map (KeyPath.ofText o.path, ·)

theorem apply_of_given? {v : Value} (given : o.given? env = some v) (data : Value) :
    (o.apply env data).data = (v.write (KeyPath.ofText o.path) data).data ∧
      (o.apply env data).fault = (v.write (KeyPath.ofText o.path) data).fault := by
  obtain ⟨read, value, ok⟩ := Option.bind_eq_some_iff.mp given
  cases read with
  | error fault => cases ok
  | ok w =>
    cases ok
    simp [apply, value]

theorem apply_of_not_given? (absent : o.given? env = none) (data : Value) :
    (o.apply env data).data = data ∧ (o.apply env data).fault = none := by
  rw [apply]
  cases value : o.value? env with
  | none => exact ⟨rfl, rfl⟩
  | some read =>
    cases read with
    | error fault => exact ⟨rfl, rfl⟩
    | ok v => simp [given?, value, Except.toOption] at absent

/-- Overrides in turn are nothing but values written in turn. -/
theorem applyAll_eq_writeAll (env : Environment) (os : List Override) (data : Value) :
    (applyAll env os data).data = (Value.writeAll (writes env os) data).data ∧
      (applyAll env os data).fault = (Value.writeAll (writes env os) data).fault := by
  induction os generalizing data with
  | nil => exact ⟨rfl, rfl⟩
  | cons o rest ih =>
    cases given : o.given? env with
    | none =>
      obtain ⟨same, fine⟩ := apply_of_not_given? given data
      have skipped : writes env (o :: rest) = writes env rest := by simp [writes, given]
      rw [skipped, applyAll]
      simp only [same, fine]
      exact ih data
    | some v =>
      obtain ⟨written, fault⟩ := apply_of_given? given data
      have listed : writes env (o :: rest) = (KeyPath.ofText o.path, v) :: writes env rest := by
        simp [writes, given]
      rw [listed, applyAll, Value.writeAll]
      simp only [fault]
      cases (v.write (KeyPath.ofText o.path) data).fault with
      | none =>
        simp only [written]
        exact ih _
      | some _ => exact ⟨written, fault⟩

/-- Where two overrides lead: to places neither of which is the other or on the way to it. -/
def Apart (o p : Override) : Prop :=
  ¬KeyPath.ofText o.path <+: KeyPath.ofText p.path ∧
    ¬KeyPath.ofText p.path <+: KeyPath.ofText o.path

theorem allApart_writes (apart : os.Pairwise Apart) (env : Environment) :
    Value.AllApart (writes env os) := by
  refine apart.filterMap _ fun o p parted => ?_
  rintro _ here _ there
  obtain ⟨v, -, rfl⟩ := Option.map_eq_some_iff.mp here
  obtain ⟨w, -, rfl⟩ := Option.map_eq_some_iff.mp there
  exact KeyPath.apart_of_not_prefix parted.1 parted.2

theorem writes_filter {keep : Override → Bool}
    (spare : ∀ o ∈ os, keep o = false → o.given? env = none) :
    writes env (os.filter keep) = writes env os := by
  rw [writes, List.filterMap_filter, writes]
  refine List.filterMap_congr fun o mem => ?_
  cases kept : keep o with
  | true => rfl
  | false => simp [spare o mem kept]

/-- What becomes of data under overrides does not depend on their order. -/
structure OrderFree (env : Environment) (os : List Override) (data : Value) : Prop where
  /-- In any order they fail if they fail in one, -/
  fault_iff : ∀ others, os.Perm others →
    ((applyAll env os data).fault = none ↔ (applyAll env others data).fault = none)
  /-- and otherwise give the same data but for the order of entries, -/
  reordered : ∀ others, os.Perm others → (applyAll env os data).fault = none →
    (applyAll env os data).data.Reordered (applyAll env others data).data
  /-- which are equal unless something in them differs from itself. -/
  equal : ∀ others, os.Perm others → (applyAll env os data).fault = none →
    (applyAll env os data).data.same (applyAll env os data).data = true →
      (applyAll env os data).data.same (applyAll env others data).data = true
  /-- A second time they change nothing. -/
  again : (applyAll env os (applyAll env os data).data).data = (applyAll env os data).data ∧
    (applyAll env os (applyAll env os data).data).fault = (applyAll env os data).fault
  /-- Those whose variable is not set, or has a text that cannot be read, may be left out. -/
  spare : ∀ keep : Override → Bool, (∀ o ∈ os, keep o = false → o.given? env = none) →
    (applyAll env (os.filter keep) data).data = (applyAll env os data).data ∧
      (applyAll env (os.filter keep) data).fault = (applyAll env os data).fault

/-- Overrides that do not get in each other's way may be applied in any order. -/
theorem applyAll_order_free (apart : os.Pairwise Apart) (env : Environment) (data : Value) :
    OrderFree env os data := by
  have parted := allApart_writes apart env
  obtain ⟨written, fault⟩ := applyAll_eq_writeAll env os data
  have reordered : ∀ others, os.Perm others → (applyAll env os data).fault = none →
      (applyAll env os data).data.Reordered (applyAll env others data).data := by
    intro others perm fine
    rw [written, (applyAll_eq_writeAll env others data).1]
    exact Value.reordered_writeAll parted (perm.filterMap _) (fault.symm.trans fine)
  constructor
  case fault_iff =>
    intro others perm
    have perm' : (writes env os).Perm (writes env others) := perm.filterMap _
    rw [fault, (applyAll_eq_writeAll env others data).2, Value.writeAll_fault_eq_none_iff parted,
      Value.writeAll_fault_eq_none_iff (parted.perm perm')]
    exact forall_congr' fun w => imp_congr_left perm'.mem_iff
  case reordered => exact reordered
  case equal => exact fun others perm fine itself => (reordered others perm fine).same itself
  case again =>
    obtain ⟨written', fault'⟩ := applyAll_eq_writeAll env os (applyAll env os data).data
    rw [written', fault', written, Value.writeAll_writeAll parted]
    exact ⟨rfl, fault.symm⟩
  case spare =>
    intro keep spare
    obtain ⟨written', fault'⟩ := applyAll_eq_writeAll env (os.filter keep) data
    rw [written', fault', writes_filter spare, written, fault]
    exact ⟨rfl, rfl⟩

/-- Two overrides that share a section which is not there yet, and one that comes to nothing. -/
def sharing : List Override :=
  [⟨"A", "a.b", .bool⟩, ⟨"B", "a..c", .float⟩, ⟨"C", "a.d", .integer⟩]

/-- An environment with two texts that can be read and one that cannot. -/
def sharingVariables : Environment := [("A", "yes"), ("B", "nan"), ("C", "seven")]

theorem applyAll_order_free_sharing :
    (applyAll sharingVariables sharing (.dict [])).fault = none ∧
      (applyAll sharingVariables sharing (.dict [])).data.Reordered
        (applyAll sharingVariables sharing.reverse (.dict [])).data ∧
      (applyAll sharingVariables (sharing.filter fun o => o.name != "C") (.dict [])).data =
        (applyAll sharingVariables sharing (.dict [])).data := by
  have apart : sharing.Pairwise Apart := by
    unfold Apart
    decide
  have free := applyAll_order_free apart sharingVariables (.dict [])
  have fine : (applyAll sharingVariables sharing (.dict [])).fault = none := rfl
  have spare : ∀ o ∈ sharing, (o.name != "C") = false →
      (o.given? sharingVariables).isNone = true := by decide +kernel
  exact ⟨fine, free.reordered _ (List.reverse_perm sharing).symm fine,
    (free.spare _ fun o mem other => Option.isNone_iff_eq_none.mp (spare o mem other)).1⟩

end Override

end OptionHost
