import OptionHost.Proofs.LayerPaths

/-!
# Layers put together beforehand

Three layers give the same whichever two of them are merged first, as long as the middle one has
nothing but mappings, or nothing at all, wherever the two others both have a mapping. Without any
condition a layer that is laid over a result a second time changes nothing.
-/

namespace OptionHost

namespace Entries

/-! ## Keys that are new -/

section NewKeys

variable {seen others items : List Value}

/-- All of some keys are among others. -/
def Covers (others seen : List Value) : Prop := ∀ k ∈ seen, others.any (·.same k) = true

theorem covers_newKeys (itself : ∀ k ∈ items, k.same k = true) :
    Covers (seen ++ newKeys seen items) items := by
  induction items generalizing seen with
  | nil => simp [Covers]
  | cons k rest ih =>
    have later := fun m mem => itself m (List.mem_cons_of_mem k mem)
    intro m mem
    rw [newKeys]
    rcases List.mem_cons.mp mem with rfl | there
    · split
      · next known => rw [List.any_append, known, Bool.true_or]
      · simp [itself m (by simp)]
    · split
      · exact ih later m there
      · have covered : Covers (seen ++ [k] ++ newKeys (seen ++ [k]) rest) rest := ih later
        rw [List.append_assoc] at covered
        exact covered m there

theorem newKeys_of_covers (covers : Covers seen items) : newKeys seen items = [] := by
  induction items with
  | nil => rfl
  | cons k rest ih =>
    rw [newKeys, if_pos (covers k (by simp)), ih fun m mem => covers m (List.mem_cons_of_mem k mem)]

theorem Covers.any_same (covers : Covers others seen) (keyed : ∀ k ∈ others, k.unkeyed? = none)
    {k : Value} (known : seen.any (·.same k) = true) : others.any (·.same k) = true := by
  obtain ⟨s, mem, same⟩ := List.any_eq_true.mp known
  obtain ⟨t, mem', same'⟩ := List.any_eq_true.mp (covers s mem)
  exact List.any_eq_true.mpr ⟨t, mem', Value.same_trans t (keyed t mem') same' same⟩

theorem Covers.concat (covers : Covers others seen) {k : Value} (itself : k.same k = true) :
    Covers (others ++ [k]) (seen ++ [k]) := by
  intro m mem
  rw [List.any_append]
  rcases List.mem_append.mp mem with there | here
  · rw [covers m there, Bool.true_or]
  · simp [List.mem_singleton.mp here, itself]

/-- Leaving out what is known anyway changes nothing. -/
theorem newKeys_newKeys (keyed : ∀ k ∈ others, k.unkeyed? = none)
    (isKey : ∀ k ∈ items, k.IsKey) (covers : Covers others seen) :
    newKeys others (newKeys seen items) = newKeys others items := by
  induction items generalizing seen others with
  | nil => rfl
  | cons k rest ih =>
    have later := fun m mem => isKey m (List.mem_cons_of_mem k mem)
    by_cases known : seen.any (·.same k) = true
    · rw [newKeys, if_pos known, newKeys, if_pos (covers.any_same keyed known),
        ih keyed later covers]
    · rw [newKeys, if_neg known, newKeys, newKeys]
      split
      · next covered =>
        refine ih keyed later fun m mem => ?_
        rcases List.mem_append.mp mem with there | here
        · exact covers m there
        · rwa [List.mem_singleton.mp here]
      · have first := isKey k (by simp)
        have keyed' : ∀ m ∈ others ++ [k], m.unkeyed? = none := by
          intro m mem
          rcases List.mem_append.mp mem with there | here
          · exact keyed m there
          · exact List.mem_singleton.mp here ▸ first.keyed
        rw [ih keyed' later (covers.concat first.itself)]

end NewKeys

variable {lower middle upper : Entries} {path : List Value} {key : Value}

theorem Regular.isKey {entries : Entries} (regular : entries.Regular) :
    ∀ k ∈ Entries.keys entries, k.IsKey := by
  intro k mem
  obtain ⟨e, there, rfl⟩ := List.mem_map.mp mem
  exact regular.keys e there

theorem keys_merge_merge (regularLower : lower.Regular) (regularMiddle : middle.Regular)
    (regularUpper : upper.Regular) :
    keys (merge (merge lower middle) upper) = keys (merge lower (merge middle upper)) := by
  have merged := (regularLower.merge regularMiddle).isKey
  rw [keys_merge] at merged
  rw [keys_merge, keys_merge, keys_merge lower, keys_merge middle, newKeys_append,
    newKeys_newKeys (fun k mem => (merged k mem).keyed) regularUpper.isKey
      (covers_newKeys fun k mem => (regularMiddle.isKey k mem).itself), List.append_assoc]

theorem keys_merge_self (lower : Entries) (regularUpper : upper.Regular) :
    keys (merge (merge lower upper) upper) = keys (merge lower upper) := by
  rw [keys_merge (merge lower upper), keys_merge lower,
    newKeys_of_covers (covers_newKeys fun k mem => (regularUpper.isKey k mem).itself),
    List.append_nil]

/-! ## What a middle layer cuts off -/

/-- A middle layer has something that is no mapping where a lower and an upper one have mappings. -/
def Interrupts (path : List Value) (lower middle upper : Entries) : Prop :=
  (∃ u, (Value.dict lower).reach? path = some u ∧ u.isDict = true) ∧
    (∃ v, (Value.dict middle).reach? path = some v ∧ v.isDict = false) ∧
    ∃ w, (Value.dict upper).reach? path = some w ∧ w.isDict = true

/-- An interruption within the mappings at a key is one in the whole. -/
theorem Interrupts.cons {middle' upper' : Entries}
    (interrupts : Interrupts path (found (lower.get? key)) middle' upper')
    (there : middle.get? key = some (.dict middle'))
    (above : upper.get? key = some (.dict upper')) :
    Interrupts (key :: path) lower middle upper := by
  obtain ⟨⟨u, low, dict⟩, ⟨v, mid, plain⟩, w, high, dict'⟩ := interrupts
  have within : lower.get? key = some (.dict (found (lower.get? key))) := by
    cases path with
    | nil =>
      cases mid
      cases plain
    | cons next rest =>
      cases beneath : lower.get? key with
      | none => rw [beneath] at low; cases low
      | some a =>
        cases a with
        | dict _ => rfl
        | _ => rw [beneath] at low; cases low
  refine ⟨⟨u, ?_, dict⟩, ⟨v, ?_, plain⟩, w, ?_, dict'⟩
  · rw [Value.reach?_cons, within]
    exact low
  · rw [Value.reach?_cons, there]
    exact mid
  · rw [Value.reach?_cons, above]
    exact high

end Entries

namespace Value

open Entries (found)

/-- Three values at one place. If the upper two are mappings, it is left to show that those can be
merged in either order. -/
theorem laidOver_laidOver {middle upper : Value} {below : Option Value}
    (regularMiddle : middle.Regular) (regularUpper : upper.Regular)
    (whole : middle.isDict = false → upper.isDict = true → ∀ lower, below ≠ some (.dict lower))
    (within : ∀ m u : Entries, middle = .dict m → upper = .dict u →
      Entries.merge (Entries.merge (found below) m) u =
        Entries.merge (found below) (Entries.merge m u)) :
    upper.laidOver (some (middle.laidOver below)) =
      (upper.laidOver (some middle)).laidOver below := by
  by_cases plain : upper.isDict = false
  · rw [laidOver_plain plain, laidOver_plain plain, laidOver_plain plain]
  obtain ⟨u, rfl⟩ := exists_dict plain
  by_cases scalar : middle.isDict = false
  · -- The upper mapping stands alone, so nothing beneath the middle may be one.
    have empty : found below = [] := by
      rcases laidOver_dict u below with ⟨lower, rfl, -⟩ | ⟨empty, -⟩
      · exact absurd rfl (whole scalar rfl lower)
      · exact empty
    have alone : (Value.dict u).laidOver (some middle) = .dict u := by
      cases middle <;> first | rfl | cases scalar
    rw [laidOver_plain scalar, alone, laidOver_found regularUpper.own, empty,
      Entries.nil_merge regularUpper.own.differ]
  · obtain ⟨m, rfl⟩ := exists_dict scalar
    have merged := regularMiddle.own.merge regularUpper.own
    rw [laidOver_found regularMiddle.own, laidOver_found regularUpper.own,
      laidOver_found regularUpper.own]
    exact (congrArg Value.dict (within m u rfl rfl)).trans (laidOver_found merged below).symm

end Value

namespace Entries

open Value (laidOver_laidOver laidOver_plain laidOver_found)

variable {lower middle upper : Entries}

theorem regular_beneath (regular : (Value.dict lower).Regular) (key : Value) :
    (Value.dict (found (lower.get? key))).Regular :=
  Value.regular_found fun _ => regular.get?

/-- The order of merging makes no difference if the middle layer interrupts nothing. -/
theorem merge_assoc_of_not_interrupts (regularLower : (Value.dict lower).Regular)
    (regularMiddle : (Value.dict middle).Regular) (regularUpper : (Value.dict upper).Regular)
    (whole : ∀ path, ¬Interrupts path lower middle upper) :
    merge (merge lower middle) upper = merge lower (merge middle upper) := by
  induction regularUpper using Value.Regular.dict_induction generalizing lower middle with
  | step upper regularUpper ih =>
    have low := regularLower.own
    have mid := regularMiddle.own
    have up := regularUpper.own
    refine eq_of_keys ((low.merge mid).merge up) (keys_merge_merge low mid up) fun k _ => ?_
    rw [get?_merge (low.merge mid) up, get?_merge low mid, get?_merge low (mid.merge up),
      get?_merge mid up]
    cases above : get? k upper with
    | none => rfl
    | some w =>
      cases there : get? k middle with
      | none => cases w <;> rfl
      | some m =>
        have under := regular_beneath regularLower k
        refine congrArg some (laidOver_laidOver (regularMiddle.get? there) (regularUpper.get? above)
          ?_ ?_)
        · intro plain dict inner beneath
          refine whole [k] ⟨⟨.dict inner, ?_, rfl⟩, ⟨m, ?_, plain⟩, w, ?_, dict⟩
          · rw [Value.reach?_cons, beneath]; rfl
          · rw [Value.reach?_cons, there]; rfl
          · rw [Value.reach?_cons, above]; rfl
        · rintro mid' up' rfl rfl
          exact ih k up' above under (regularMiddle.get? there)
            fun path interrupts => whole (k :: path) (interrupts.cons there above)

/-- What is laid over a result once more changes nothing. -/
theorem merge_merge_self (regularLower : (Value.dict lower).Regular)
    (regularUpper : (Value.dict upper).Regular) :
    merge (merge lower upper) upper = merge lower upper := by
  induction regularUpper using Value.Regular.dict_induction generalizing lower with
  | step upper regularUpper ih =>
    have low := regularLower.own
    have up := regularUpper.own
    refine eq_of_keys ((low.merge up).merge up) (keys_merge_self lower up) fun k _ => ?_
    rw [get?_merge (low.merge up) up, get?_merge low up]
    cases above : get? k upper with
    | none => rfl
    | some w =>
      refine congrArg some ?_
      change w.laidOver (some (w.laidOver (lower.get? k))) = w.laidOver (lower.get? k)
      by_cases plain : w.isDict = false
      · rw [laidOver_plain plain, laidOver_plain plain]
      · obtain ⟨inner, rfl⟩ := Value.exists_dict plain
        have within := (regularUpper.get? above).own
        rw [laidOver_found within, laidOver_found within]
        exact congrArg Value.dict (ih k inner above (regular_beneath regularLower k))

/-- Layers may be put together beforehand. -/
theorem merge_grouped :
    (∀ lower middle upper : Entries, (Value.dict lower).Regular → (Value.dict middle).Regular →
      (Value.dict upper).Regular → (∀ path, ¬Interrupts path lower middle upper) →
        merge (merge lower middle) upper = merge lower (merge middle upper)) ∧
      ∀ lower upper : Entries, (Value.dict lower).Regular → (Value.dict upper).Regular →
        merge (merge lower upper) upper = merge lower upper :=
  ⟨fun _ _ _ => merge_assoc_of_not_interrupts, fun _ _ => merge_merge_self⟩

/-- A layer that leaves the table of classes alone and puts a mapping in the place of `wrap`. -/
def widened : Entries :=
  [(.text "options", .dict [(.text "wrap", .dict [(.int 0, .null)])]), (.text "scripting", .null)]

theorem regular_widened : (Value.dict widened).Regular := by
  simp [widened, Value.regular_dict, Value.regular_null]
  decide

theorem not_interrupts_widened (path : List Value) : ¬Interrupts path tabled cleared widened := by
  rintro ⟨-, ⟨v, mid, plain⟩, w, high, -⟩
  match path with
  | [] =>
    cases mid
    cases plain
  | [k] =>
    by_cases same : (Value.text "options").same k = true
    · simp [cleared, Value.reach?, get?, same] at mid
      subst mid
      cases plain
    · simp [cleared, Value.reach?, get?, same] at mid
  | k :: k' :: rest =>
    -- The middle layer has nothing but `classes` there, and the upper one nothing but `wrap`.
    by_cases same : (Value.text "options").same k = true
    · have classes : (Value.text "classes").same k' = true := by
        by_contra other
        simp [cleared, Value.reach?, get?, same, other] at mid
      rw [Value.same_text_left.mp classes] at high
      simp [widened, Value.reach?, get?, same] at high
    · simp [cleared, Value.reach?, get?, same] at mid

theorem merge_grouped_widened :
    (∀ path, ¬Interrupts path tabled cleared widened) ∧
      merge (merge tabled cleared) widened = merge tabled (merge cleared widened) ∧
      merge (merge tabled restored) restored = merge tabled restored :=
  ⟨not_interrupts_widened,
    merge_grouped.1 tabled cleared widened regular_tabled regular_cleared regular_widened
      not_interrupts_widened,
    merge_grouped.2 tabled restored regular_tabled regular_restored⟩

/-- What a middle layer interrupts comes back when it meets the upper layer first. -/
example : merge (merge tabled cleared) restored ≠ merge tabled (merge cleared restored) :=
  fun same => absurd
    (congrArg (fun layer => (keysAt [.text "options", .text "classes"] layer).length) same)
    (by decide)

end Entries

end OptionHost
