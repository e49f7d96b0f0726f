import OptionHost.Layer.File
import OptionHost.Layer.Path

/-!
# Mappings with different keys

A mapping binds each of its keys once, so a look-up finds whatever is bound, and of two layers the
upper one decides. Mappings that a document writes are like that all the way down.
-/

namespace OptionHost

theorem Value.same_text_right {k : Value} {name : String} :
    k.same (.text name) = true ↔ k = .text name := by
  cases k <;> simp [Value.same, Value.integer?]

theorem Value.same_text_left {k : Value} {name : String} :
    (Value.text name).same k = true ↔ k = .text name := by
  cases k with
  | text s =>
    rw [Value.same_text, beq_iff_eq, Value.text.injEq]
    exact eq_comm
  | _ => simp [Value.same]

@[simp] theorem Value.laidOver_none (v : Value) : v.laidOver none = v := by
  cases v <;> rfl

namespace Entries

variable {entries lower upper : Entries} {key value : Value} {name : String}

/-- The keys of a mapping are all different. -/
def KeysDiffer (entries : Entries) : Prop := entries.Pairwise fun a b => a.1.same b.1 = false

/-! ## Updates -/

theorem mem_put {e : Value × Value} (mem : e ∈ put key value entries) :
    e ∈ entries ∨ e.2 = value ∧ (e.1 = key ∨ ∃ v, (e.1, v) ∈ entries) := by
  induction entries with
  | nil =>
    obtain rfl : e = (key, value) := by simpa [put] using mem
    exact .inr ⟨rfl, .inl rfl⟩
  | cons first rest ih =>
    obtain ⟨k, v⟩ := first
    by_cases found : k.same key = true
    · rw [put, if_pos found, List.mem_cons] at mem
      rcases mem with rfl | mem
      · exact .inr ⟨rfl, .inr ⟨v, by simp⟩⟩
      · exact .inl (by simp [mem])
    · rw [put, if_neg found, List.mem_cons] at mem
      rcases mem with rfl | mem
      · exact .inl (by simp)
      · rcases ih mem with there | ⟨rfl, rfl | ⟨w, there⟩⟩
        · exact .inl (by simp [there])
        · exact .inr ⟨rfl, .inl rfl⟩
        · exact .inr ⟨rfl, .inr ⟨w, by simp [there]⟩⟩

theorem KeysDiffer.put (differ : entries.KeysDiffer) : (put key value entries).KeysDiffer := by
  induction entries with
  | nil => exact List.pairwise_singleton _ _
  | cons first rest ih =>
    obtain ⟨k, v⟩ := first
    obtain ⟨apart, differ⟩ := List.pairwise_cons.mp differ
    by_cases found : k.same key = true
    · rw [Entries.put, if_pos found]
      exact List.pairwise_cons.mpr ⟨apart, differ⟩
    · rw [Entries.put, if_neg found]
      refine List.pairwise_cons.mpr ⟨fun e mem => ?_, ih differ⟩
      rcases mem_put mem with there | ⟨-, same | ⟨w, there⟩⟩
      · exact apart e there
      · simpa [same] using found
      · exact apart (e.1, w) there

theorem named?_put : (put key value entries).named? name =
    if key.same (.text name) then some value else entries.named? name := by
  by_cases text : key.isText = true
  · obtain ⟨s, rfl⟩ : ∃ s, key = .text s := by
      cases key <;> simp_all [Value.isText]
    exact get?_put_text s name value entries
  · have other : key.same (.text name) = false :=
      Bool.eq_false_iff.mpr fun same => text (by rw [Value.same_text_right.mp same]; rfl)
    rw [other, if_neg (by simp)]
    induction entries with
    | nil => simp [put, named?, get?, other]
    | cons first rest ih =>
      obtain ⟨k, v⟩ := first
      by_cases found : k.same key = true
      · -- no text counts as a key that is none
        have unnamed : k.same (.text name) = false := Bool.eq_false_iff.mpr fun same => by
          rw [Value.same_text_right.mp same] at found
          exact text (by rw [Value.same_text_left.mp found]; rfl)
        simp [put, found, named?, get?, unnamed]
      · simp only [named?] at ih
        simp [put, found, named?, get?, ih]

theorem named?_eq_none (absent : ∀ e ∈ entries, e.1 ≠ .text name) : entries.named? name = none := by
  induction entries with
  | nil => rfl
  | cons first rest ih =>
    obtain ⟨k, v⟩ := first
    have unnamed : ¬k.same (.text name) = true :=
      fun same => absent (k, v) (by simp) (Value.same_text_right.mp same)
    rw [named?, get?, if_neg unnamed]
    exact ih fun e mem => absent e (by simp [mem])

theorem mem_of_named? (found : entries.named? name = some value) :
    (.text name, value) ∈ entries := by
  induction entries with
  | nil => cases found
  | cons first rest ih =>
    obtain ⟨k, v⟩ := first
    by_cases same : k.same (.text name) = true
    · rw [named?, get?, if_pos same] at found
      cases found
      rw [Value.same_text_right.mp same]
      simp
    · rw [named?, get?, if_neg same] at found
      exact List.mem_cons_of_mem _ (ih found)

theorem KeysDiffer.named?_of_mem (differ : entries.KeysDiffer)
    (mem : (.text name, value) ∈ entries) : entries.named? name = some value := by
  induction entries with
  | nil => cases mem
  | cons first rest ih =>
    obtain ⟨k, v⟩ := first
    obtain ⟨apart, differ⟩ := List.pairwise_cons.mp differ
    rcases List.mem_cons.mp mem with same | mem
    · cases same
      simp [named?, get?]
    · rw [named?, get?, if_neg (by rw [apart _ mem]; simp)]
      exact ih differ mem

theorem KeysDiffer.named?_tail {e : Value × Value} (differ : KeysDiffer (e :: entries))
    (named : e.1 = .text name) : entries.named? name = none := by
  obtain ⟨apart, -⟩ := List.pairwise_cons.mp differ
  refine named?_eq_none fun f mem same => ?_
  have differs := apart f mem
  rw [named, same] at differs
  simp at differs

/-! ## Layers -/

theorem merge_cons (k v : Value) : merge lower ((k, v) :: upper) =
    merge (lower.put k (v.laidOver (lower.get? k))) upper := rfl

theorem KeysDiffer.merge (differ : lower.KeysDiffer) : (merge lower upper).KeysDiffer := by
  induction upper generalizing lower with
  | nil => exact differ
  | cons first rest ih =>
    obtain ⟨k, v⟩ := first
    rw [merge_cons]
    exact ih differ.put

theorem mem_merge {e : Value × Value} (mem : e ∈ merge lower upper) :
    (∃ v, (e.1, v) ∈ lower) ∨ ∃ v, (e.1, v) ∈ upper := by
  induction upper generalizing lower with
  | nil => exact .inl ⟨e.2, mem⟩
  | cons first rest ih =>
    obtain ⟨k, u⟩ := first
    rw [merge_cons] at mem
    rcases ih mem with ⟨v, there⟩ | ⟨v, there⟩
    · rcases mem_put there with there | ⟨-, rfl | ⟨w, there⟩⟩
      · exact .inl ⟨v, there⟩
      · exact .inr ⟨u, by simp⟩
      · exact .inl ⟨w, there⟩
    · exact .inr ⟨v, by simp [there]⟩

/-- What an upper layer names is laid over what is beneath; the rest shows through. -/
theorem named?_merge (differ : upper.KeysDiffer) (lower : Entries) (name : String) :
    (merge lower upper).named? name =
      ((upper.named? name).map (·.laidOver (lower.named? name))).or (lower.named? name) := by
  induction upper generalizing lower with
  | nil => rfl
  | cons first rest ih =>
    obtain ⟨k, v⟩ := first
    have differ' : KeysDiffer rest := (List.pairwise_cons.mp differ).2
    rw [merge_cons, ih differ', named?_put]
    by_cases same : k.same (.text name) = true
    · -- The rest of the upper layer leaves the name alone, so what is put now is what is found.
      obtain rfl := Value.same_text_right.mp same
      rw [differ.named?_tail rfl, if_pos same]
      simp [named?, get?]
    · rw [if_neg same]
      simp [named?, get?, same]

/-- Whether something that is no mapping stands under a name. -/
def blocks (name : String) (entries : Entries) : Bool :=
  (entries.named? name).any fun v => !v.isDict

/-- What a layer shows at a place of a section from beneath another one. -/
def beneath (lower upper : Entries) (part key : String) : Option Value :=
  if upper.blocks part then none else (Value.dict lower).at? [part, key]

theorem at?_single (key : String) : (Value.dict entries).at? [key] = entries.named? key := by
  rw [Value.at?]
  cases entries.named? key <;> rfl

theorem at?_pair (part key : String) : (Value.dict entries).at? [part, key] =
    (entries.named? part).bind fun v => v.at? [key] := by
  rw [Value.at?]
  cases entries.named? part <;> rfl

theorem at?_laidOver (differ : upper.KeysDiffer) (below : Option Value) (key : String) :
    ((Value.dict upper).laidOver below).at? [key] =
      ((upper.named? key).map (·.laidOver (below.bind fun v => v.at? [key]))).or
        (below.bind fun v => v.at? [key]) := by
  have plain : (Value.dict upper).at? [key] =
      ((upper.named? key).map (·.laidOver none)).or none := by
    rw [at?_single]
    cases upper.named? key <;> simp
  cases below with
  | none => exact plain
  | some v =>
    cases v with
    | dict lower =>
      have merged := named?_merge differ lower key
      rwa [← at?_single, ← at?_single] at merged
    | _ => exact plain

end Entries

namespace Value

open Entries (KeysDiffer)

/-- The keys of a mapping, and of every mapping that it leads to, are all different. -/
inductive Proper : Value → Prop
  | plain {v : Value} (none : v.isDict = false) : Proper v
  | dict {entries : Entries} (differ : entries.KeysDiffer) (values : ∀ e ∈ entries, e.2.Proper) :
    Proper (.dict entries)

theorem Proper.differ {entries : Entries} (proper : (Value.dict entries).Proper) :
    entries.KeysDiffer := by
  cases proper with
  | plain none => cases none
  | dict differ _ => exact differ

theorem Proper.value {entries : Entries} {e : Value × Value}
    (proper : (Value.dict entries).Proper) (mem : e ∈ entries) : e.2.Proper := by
  cases proper with
  | plain none => cases none
  | dict _ values => exact values e mem

theorem proper_dict {entries : Entries} :
    (Value.dict entries).Proper ↔ entries.KeysDiffer ∧ ∀ e ∈ entries, e.2.Proper :=
  ⟨fun proper => ⟨proper.differ, fun _ mem => proper.value mem⟩,
    fun ⟨differ, values⟩ => .dict differ values⟩

theorem Proper.at? {v w : Value} {path : KeyPath} (proper : v.Proper)
    (found : v.at? path = some w) : w.Proper := by
  induction path generalizing v with
  | nil =>
    cases found
    exact proper
  | cons key rest ih =>
    cases v with
    | dict entries =>
      rw [Value.at?] at found
      cases named : Entries.named? key entries with
      | none => simp [named] at found
      | some u =>
        rw [named] at found
        exact ih (proper.value (Entries.mem_of_named? named)) found
    | _ => cases found

end Value

namespace Entries

/-- What the upper of two layers has at a place of a section is laid over what shows there from
beneath. -/
theorem at?_merge {upper : Entries} (proper : (Value.dict upper).Proper) (lower : Entries)
    (part key : String) :
    (Value.dict (merge lower upper)).at? [part, key] =
      (((Value.dict upper).at? [part, key]).map (·.laidOver (lower.beneath upper part key))).or
        (lower.beneath upper part key) := by
  rw [at?_pair, at?_pair, named?_merge proper.differ, beneath, blocks, at?_pair]
  cases above : upper.named? part with
  | none => simp
  | some v =>
    cases v with
    | dict entries =>
      have differ : KeysDiffer entries := (proper.value (mem_of_named? above)).differ
      simpa [Value.isDict, at?_single] using at?_laidOver differ (lower.named? part) key
    | _ => simp [Value.at?, Value.laidOver, Value.isDict]

end Entries

end OptionHost
