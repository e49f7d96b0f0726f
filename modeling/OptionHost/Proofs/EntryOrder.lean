import OptionHost.Proofs.PathWriting

/-!
# Data but for the order of their entries

Values may differ in nothing but the order in which their mappings have their entries. Comparison
does not tell them apart, and neither does writing along a path. Two values written at paths that
part may be written in either order.
-/

namespace OptionHost

namespace Value

/-- One value becomes the other by neighbouring entries that change places, in mappings however deep
inside. -/
inductive Reordered : Value → Value → Prop
  | refl (v : Value) : Reordered v v
  | entry (key : Value) {v w : Value} {entries others : Entries} (value : Reordered v w)
      (rest : Reordered (.dict entries) (.dict others)) :
      Reordered (.dict ((key, v) :: entries)) (.dict ((key, w) :: others))
  | swap {k k' : Value} (differ : k.same k' = false) (v v' : Value) (entries : Entries) :
      Reordered (.dict ((k, v) :: (k', v') :: entries)) (.dict ((k', v') :: (k, v) :: entries))
  | trans {u v w : Value} (first : Reordered u v) (second : Reordered v w) : Reordered u w

/-! ## Comparison -/

section Comparison

variable {entries others : Entries}

theorem entriesWithin_congr (within : ∀ e, entryWithin e entries = entryWithin e others)
    (wanted : Entries) : entriesWithin wanted entries = entriesWithin wanted others := by
  induction wanted with
  | nil => rfl
  | cons e rest ih => rw [entriesWithin, entriesWithin, within, ih]

theorem same_dict_congr (length : entries.length = others.length)
    (within : ∀ e, entryWithin e entries = entryWithin e others) (v : Value) :
    v.same (.dict entries) = v.same (.dict others) := by
  cases v with
  | dict wanted => rw [same, same, length, entriesWithin_congr within]
  | _ => simp [same, integer?]

/-- Two mappings that a comparison with a third one goes through alike. -/
def Interchangeable (entries others : Entries) : Prop :=
  entries.length = others.length ∧ ∀ e, entryWithin e entries = entryWithin e others

theorem Reordered.interchangeable {a b : Value} (reordered : a.Reordered b) :
    (∀ v : Value, v.same a = v.same b) ∧
      ∀ entries, a = .dict entries → ∃ others, b = .dict others ∧
        Interchangeable entries others := by
  -- what holds of the entries of two mappings holds of the mappings
  have whole {entries others : Entries} (alike : Interchangeable entries others) :
      (∀ v : Value, v.same (.dict entries) = v.same (.dict others)) ∧
        ∀ es, Value.dict entries = .dict es → ∃ fs, Value.dict others = .dict fs ∧
          Interchangeable es fs := by
    refine ⟨same_dict_congr alike.1 alike.2, ?_⟩
    rintro _ ⟨⟩
    exact ⟨others, rfl, alike⟩
  induction reordered with
  | refl v => exact ⟨fun _ => rfl, fun entries same => ⟨entries, same, rfl, fun _ => rfl⟩⟩
  | entry key _ _ value rest =>
    obtain ⟨_, ⟨⟩, length, within⟩ := rest.2 _ rfl
    refine whole ⟨by simp [length], fun ⟨k, u⟩ => ?_⟩
    have later := within (k, u)
    simp only [entryWithin] at later
    simp only [entryWithin, List.any_cons, value.1 u, later]
  | swap =>
    refine whole ⟨by simp, fun ⟨k, u⟩ => ?_⟩
    simp only [entryWithin, List.any_cons]
    exact Bool.or_left_comm _ _ _
  | trans _ _ first second =>
    refine ⟨fun v => (first.1 v).trans (second.1 v), fun entries same => ?_⟩
    obtain ⟨others, same', length, within⟩ := first.2 entries same
    obtain ⟨others', same'', length', within'⟩ := second.2 others same'
    exact ⟨others', same'', length.trans length', fun e => (within e).trans (within' e)⟩

/-- Values that are reordered are the same, if there is nothing in them that differs from itself. -/
theorem Reordered.same {a b : Value} (reordered : a.Reordered b) (itself : a.same a = true) :
    a.same b = true :=
  (reordered.interchangeable.1 a).symm.trans itself

end Comparison

/-! ## Writing -/

variable {a b data value later : Value} {entries : Entries} {key : String}
  {path other : KeyPath}

theorem branch_cons (k v : Value) (rest : Entries) : Entries.branch key ((k, v) :: rest) =
    if k.same (.text key) then v else Entries.branch key rest := by
  rw [Entries.branch, Entries.named?, Entries.get?]
  split <;> rfl

/-- Writing under the key that comes first. -/
theorem write_first {k v : Value} {rest : Entries} (here : k.same (.text key) = true) :
    value.write (key :: path) (.dict ((k, v) :: rest)) =
      ⟨.dict ((k, (value.write path v).data) :: rest), (value.write path v).fault⟩ := by
  rw [write_dict, branch_cons, if_pos here, Entries.put_first here]

/-- Writing under a key behind the first one. -/
theorem write_behind {k v : Value} {rest : Entries} (elsewhere : ¬k.same (.text key) = true) :
    value.write (key :: path) (.dict ((k, v) :: rest)) =
      ⟨.dict ((k, v) :: Entries.put key (value.write path (rest.branch key)).data rest),
        (value.write path (rest.branch key)).fault⟩ := by
  rw [write_dict, branch_cons, if_neg elsewhere, Entries.put_behind elsewhere]

theorem Reordered.write (reordered : a.Reordered b) (value : Value) (path : KeyPath) :
    (value.write path a).data.Reordered (value.write path b).data ∧
      (value.write path a).fault = (value.write path b).fault := by
  induction reordered generalizing path with
  | refl v => exact ⟨.refl _, rfl⟩
  | @entry k v w entries others inner rest ihInner ihRest =>
    cases path with
    | nil => exact ⟨.refl _, rfl⟩
    | cons key path =>
      by_cases here : k.same (.text key) = true
      · rw [write_first here, write_first here]
        exact ⟨.entry k (ihInner path).1 rest, (ihInner path).2⟩
      · rw [write_behind here, write_behind here]
        obtain ⟨data, fault⟩ := ihRest (key :: path)
        exact ⟨.entry k inner data, fault⟩
  | @swap k k' differ v v' entries =>
    cases path with
    | nil => exact ⟨.refl _, rfl⟩
    | cons key path =>
      by_cases here : k.same (.text key) = true
      · -- the key is under one of the two, not under both
        have other : ¬k'.same (.text key) = true := fun same => by
          rw [same_text_right.mp here, same_text_right.mp same] at differ
          simp at differ
        rw [write_first here, write_behind other, branch_cons, if_pos here, Entries.put_first here]
        exact ⟨.swap differ _ v' entries, rfl⟩
      · by_cases there : k'.same (.text key) = true
        · rw [write_behind here, write_first there, branch_cons, if_pos there,
            Entries.put_first there]
          exact ⟨.swap differ v _ entries, rfl⟩
        · rw [write_behind here, write_behind there, branch_cons, if_neg there, branch_cons,
            if_neg here, Entries.put_behind there, Entries.put_behind here]
          exact ⟨.swap differ v v' _, rfl⟩
  | trans _ _ first second =>
    exact ⟨.trans (first path).1 (second path).1, (first path).2.trans (second path).2⟩

/-! ## Two paths that part -/

theorem Reordered.put (reordered : a.Reordered b) (key : Value) (entries : Entries) :
    Reordered (.dict (entries.put key a)) (.dict (entries.put key b)) := by
  induction entries with
  | nil => exact .entry key reordered (.refl _)
  | cons first rest ih =>
    obtain ⟨k, v⟩ := first
    rw [Entries.put, Entries.put]
    split
    · exact .entry k reordered (.refl _)
    · exact .entry k (.refl v) ih

/-- Two keys may be put in either order. -/
theorem reordered_put_put {key key' : String} (differ : key ≠ key') (v w : Value)
    (entries : Entries) :
    Reordered (.dict (Entries.put key' w (Entries.put key v entries)))
      (.dict (Entries.put key v (Entries.put key' w entries))) := by
  have apart : ∀ {k : Value}, k.same (.text key) = true → ¬k.same (.text key') = true := by
    intro k here there
    rw [same_text_right.mp here] at there
    exact differ (by simpa using there)
  induction entries with
  | nil =>
    have other : (Value.text key).same (.text key') = false := by simpa using differ
    have other' : (Value.text key').same (.text key) = false := by simpa using differ.symm
    simp only [Entries.put, other, other', Bool.false_eq_true, if_false]
    exact .swap other v w []
  | cons first rest ih =>
    obtain ⟨k, u⟩ := first
    by_cases here : k.same (.text key) = true
    · rw [Entries.put_first here, Entries.put_behind (apart here), Entries.put_behind (apart here),
        Entries.put_first here]
      exact .refl _
    · by_cases there : k.same (.text key') = true
      · rw [Entries.put_behind here, Entries.put_first there, Entries.put_first there,
          Entries.put_behind here]
        exact .refl _
      · rw [Entries.put_behind here, Entries.put_behind there, Entries.put_behind there,
          Entries.put_behind here]
        exact .entry k (.refl u) ih

/-- Values written at paths that part may be written in either order. -/
theorem reordered_write_write (apart : path.Apart other) (value later data : Value) :
    (later.write other (value.write path data).data).data.Reordered
      (value.write path (later.write other data).data).data := by
  induction apart generalizing data with
  | @fork key key' differ rest rest' =>
    by_cases plain : data.isDict = false
    · rw [write_plain plain, write_plain plain, write_plain plain]
      exact .refl _
    · obtain ⟨entries, rfl⟩ := exists_dict plain
      rw [write_dict, write_dict, write_dict, write_dict, Entries.branch_put_other differ,
        Entries.branch_put_other differ.symm]
      exact reordered_put_put differ _ _ entries
  | @cons key rest rest' _ ih =>
    by_cases plain : data.isDict = false
    · rw [write_plain plain, write_plain plain, write_plain plain]
      exact .refl _
    · obtain ⟨entries, rfl⟩ := exists_dict plain
      rw [write_dict, write_dict, write_dict, write_dict, Entries.branch_put, Entries.branch_put,
        Entries.put_put (by simp), Entries.put_put (by simp)]
      exact (ih (entries.branch key)).put _ entries

/-- A path that parts from the one that was written at is as obstructed as before. -/
theorem obstructs_write_of_apart (apart : path.Apart other) (value data : Value) :
    (value.write path data).data.Obstructs other.keys ↔ data.Obstructs other.keys := by
  induction apart generalizing data with
  | @fork key key' differ rest rest' =>
    by_cases plain : data.isDict = false
    · rw [write_plain plain]
    · obtain ⟨entries, rfl⟩ := exists_dict plain
      rw [write_dict, ← obstructs_branch, ← obstructs_branch, Entries.branch_put_other differ]
  | @cons key rest rest' _ ih =>
    by_cases plain : data.isDict = false
    · rw [write_plain plain]
    · obtain ⟨entries, rfl⟩ := exists_dict plain
      rw [write_dict, ← obstructs_branch, ← obstructs_branch, Entries.branch_put, ih]

end Value

end OptionHost
