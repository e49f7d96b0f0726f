import OptionHost.Proofs.Layering

/-!
# Layers that agree but for one place

Two files may say the same but for one key of one section. Merged with others that do so, they
still say the same but for that key: what stands at one place of a layer never comes through at
another.
-/

namespace OptionHost

namespace Entries

variable {entries lower upper a b c d : Entries} {key value : Value} {name part field : String}

/-! ## A mapping without one of its names -/

/-- The entries of a mapping but for the one that has a name. -/
def without (name : String) (entries : Entries) : Entries :=
  entries.filter fun e => !e.1.same (.text name)

@[simp] theorem without_nil : without name [] = [] := rfl

theorem without_cons (k v : Value) (rest : Entries) : without name ((k, v) :: rest) =
    if k.same (.text name) then rest.without name else (k, v) :: rest.without name := by
  by_cases named : k.same (.text name) = true <;> simp [without, named]

theorem get?_without (other : key.same (.text name) = false) (entries : Entries) :
    (entries.without name).get? key = entries.get? key := by
  induction entries with
  | nil => rfl
  | cons first rest ih =>
    obtain ⟨k, v⟩ := first
    rw [without_cons]
    split
    next named =>
      -- the name that is left out is not the key that is looked up
      have differs : ¬k.same key = true := fun same => by
        obtain rfl := Value.same_text_right.mp named
        obtain rfl := Value.same_text_left.mp same
        simp at other
      rw [ih, get?, if_neg differs]
    next => rw [get?, get?, ih]

theorem named?_without (other : field ≠ name) (entries : Entries) :
    (entries.without name).named? field = entries.named? field :=
  get?_without (by simpa using other) entries

theorem without_put : (put key value entries).without name =
    if key.same (.text name) then entries.without name
    else put key value (entries.without name) := by
  induction entries with
  | nil => simp [put, without_cons]
  | cons first rest ih =>
    obtain ⟨k, v⟩ := first
    by_cases found : k.same key = true
    · rw [put, if_pos found, without_cons, without_cons]
      by_cases named : k.same (.text name) = true
      · obtain rfl := Value.same_text_right.mp named
        obtain rfl := Value.same_text_left.mp found
        simp
      · have other : ¬key.same (.text name) = true := fun same => by
          obtain rfl := Value.same_text_right.mp same
          exact named found
        rw [if_neg named, if_neg named, if_neg other, put, if_pos found]
    · rw [put, if_neg found, without_cons, without_cons, ih]
      by_cases named : k.same (.text name) = true
      · rw [if_pos named, if_pos named]
      · rw [if_neg named, if_neg named]
        split
        next => rfl
        next => rw [put, if_neg found]

/-- A name may be left out before two layers are merged or behind it. -/
theorem without_merge (lower upper : Entries) (name : String) :
    (merge lower upper).without name = merge (lower.without name) (upper.without name) := by
  induction upper generalizing lower with
  | nil => rfl
  | cons first rest ih =>
    obtain ⟨k, v⟩ := first
    rw [merge_cons, ih, without_put, without_cons]
    split
    next => rfl
    next other => rw [merge_cons, get?_without (by simpa using other)]

theorem any_without (entries : Entries) (name : String) :
    ((entries.without name).any fun e => !e.1.isText) = entries.any fun e => !e.1.isText := by
  induction entries with
  | nil => rfl
  | cons first rest ih =>
    obtain ⟨k, v⟩ := first
    rw [without_cons]
    split
    next named =>
      obtain rfl := Value.same_text_right.mp named
      simpa [Value.isText] using ih
    next => rw [List.any_cons, List.any_cons, ih]

/-! ## Merging into nothing -/

theorem put_of_absent (absent : ∀ e ∈ entries, e.1.same key = false) (value : Value) :
    entries.get? key = none ∧ put key value entries = entries ++ [(key, value)] := by
  induction entries with
  | nil => exact ⟨rfl, rfl⟩
  | cons first rest ih =>
    obtain ⟨k, v⟩ := first
    have differs : ¬k.same key = true := by simp [absent (k, v) (by simp)]
    obtain ⟨missing, appended⟩ := ih fun e mem => absent e (by simp [mem])
    rw [get?, if_neg differs, put, if_neg differs, appended]
    exact ⟨missing, rfl⟩

theorem merge_of_disjoint (differ : KeysDiffer (lower ++ upper)) :
    merge lower upper = lower ++ upper := by
  induction upper generalizing lower with
  | nil => simp
  | cons first rest ih =>
    obtain ⟨k, v⟩ := first
    have absent : ∀ e ∈ lower, e.1.same k = false :=
      fun e mem => (List.pairwise_append.mp differ).2.2 e mem (k, v) (by simp)
    obtain ⟨missing, appended⟩ := put_of_absent absent v
    rw [merge_cons, missing, Value.laidOver_none, appended, ih (by simpa using differ)]
    simp

theorem nil_merge (differ : upper.KeysDiffer) : merge [] upper = upper :=
  merge_of_disjoint (by simpa using differ)

/-! ## Sections -/

theorem at?_found (root : Entries) (part field : String) :
    (Value.dict root).at? [part, field] = (found (root.named? part)).named? field := by
  rw [at?_pair]
  cases root.named? part with
  | none => rfl
  | some v =>
    cases v with
    | dict entries => exact at?_single field
    | _ => rfl

/-- The entries of a section are merged, unless something else than a mapping replaces them. -/
theorem found_merge (proper : (Value.dict upper).Proper) (lower : Entries) (part : String) :
    found ((merge lower upper).named? part) =
      if upper.blocks part then []
      else merge (found (lower.named? part)) (found (upper.named? part)) := by
  rw [named?_merge proper.differ, blocks]
  cases above : upper.named? part with
  | none => rfl
  | some v =>
    cases v with
    | dict own =>
      have differ : KeysDiffer own := (proper.value (mem_of_named? above)).differ
      rcases Value.laidOver_dict own (lower.named? part) with ⟨entries, beneath, same⟩ | ⟨none, same⟩
      · simp only [found, Option.map_some, Option.some_or, Option.getD_some, beneath]
        rfl
      · have alone : merge [] own = own := nil_merge differ
        rw [none]
        simp [same, found, Settings.entriesOf, Value.isDict, alone]
    | _ => simp [found, Settings.entriesOf, Value.laidOver, Value.isDict]

/-! ## Agreement -/

/-- Two mappings say the same but at a place of a section. A section that is missing counts as one
without entries, and so does what is no mapping. -/
structure SameBut (part field : String) (a b : Entries) : Prop where
  outside : a.without part = b.without part
  inside : (found (a.named? part)).without field = (found (b.named? part)).without field

/-- Two layers say the same but at a place of a section, which neither or both of them replace by
something else than a mapping. -/
structure AgreeBut (part field : String) (a b : Entries) : Prop
    extends SameBut part field a b where
  blocked : a.blocks part = b.blocks part

theorem AgreeBut.refl (part field : String) (a : Entries) : AgreeBut part field a a :=
  ⟨⟨rfl, rfl⟩, rfl⟩

/-- Layers that agree, laid over mappings that say the same, give mappings that say the same. -/
theorem SameBut.merge (below : SameBut part field a b) (above : AgreeBut part field c d)
    (properAbove : (Value.dict c).Proper) (properBeside : (Value.dict d).Proper) :
    SameBut part field (merge a c) (merge b d) where
  outside := by rw [without_merge, without_merge, below.outside, above.outside]
  inside := by
    rw [found_merge properAbove, found_merge properBeside, above.blocked]
    split
    next => rfl
    next => rw [without_merge, without_merge, below.inside, above.inside]

theorem SameBut.mergeAll {layers others : List Entries}
    (agree : List.Forall₂ (AgreeBut part field) layers others)
    (proper : ∀ layer ∈ layers, (Value.dict layer).Proper)
    (proper' : ∀ layer ∈ others, (Value.dict layer).Proper) :
    SameBut part field (mergeAll layers) (mergeAll others) := by
  suffices grown : ∀ a b, SameBut part field a b →
      SameBut part field (layers.foldl Entries.merge a) (others.foldl Entries.merge b) from
    grown [] [] ⟨rfl, rfl⟩
  induction agree with
  | nil => exact fun _ _ below => below
  | @cons layer other layers others above _ ih =>
    intro a b below
    refine ih (fun e mem => proper e (by simp [mem])) (fun e mem => proper' e (by simp [mem])) _ _ ?_
    exact below.merge above (proper layer (by simp)) (proper' other (by simp))

/-- Mappings that say the same but at one place have the same at any other one. -/
theorem SameBut.at? (same : SameBut part field a b) {part' field' : String}
    (other : [part', field'] ≠ [part, field]) :
    (Value.dict a).at? [part', field'] = (Value.dict b).at? [part', field'] := by
  rw [at?_found, at?_found]
  by_cases here : part' = part
  · subst here
    have apart : field' ≠ field := fun same => other (by rw [same])
    rw [← named?_without apart, same.inside, named?_without apart]
  · rw [← named?_without here, same.outside, named?_without here]

theorem SameBut.any (same : SameBut part field a b) :
    (a.any fun e => !e.1.isText) = b.any fun e => !e.1.isText := by
  rw [← any_without a part, ← any_without b part, same.outside]

end Entries

end OptionHost
