import Mathlib.Algebra.Field.Rat
import Mathlib.Algebra.GroupWithZero.Basic
import Mathlib.Tactic.Ring
import OptionHost.Proofs.DistinctKeys

/-!
# When two keys are one

Which keys of a mapping count as one is decided by comparing values, numbers by where they stand and
tuples item by item. On what can be a key at all, and is the same as itself, this is an equivalence.
So a mapping answers alike for keys that are the same, and look-up through layers can be told key by
key; together with the order of the keys that is all there is to a mapping.
-/

namespace OptionHost

namespace Moment

/-- The instant that a moment names, and whether it is one of universal time. -/
def instant (m : Moment) : Bool × Int :=
  (m.offset.isSome, m.microseconds - m.offset.getD 0 * 60000000)

theorem same_iff {a b : Moment} : a.same b = true ↔ a.instant = b.instant := by
  unfold same instant
  cases a.offset <;> cases b.offset <;> simp

end Moment

/-! ## Numbers -/

/-- A place on the line of numbers, or one of its two ends. -/
abbrev Place := ℚ ⊕ Bool

def Place.ofInt (n : Int) : Place := .inl n

theorem Place.ofInt_inj {m n : Int} : ofInt m = ofInt n ↔ m = n := by
  simp [ofInt]

namespace Binary64

theorem magnitude_pos (significand : Nat) (exponent : Int) :
    0 < (magnitude significand exponent).2 := by
  cases exponent with
  | ofNat k => exact Nat.one_pos
  | negSucc k => exact Nat.two_pow_pos (k + 1)

/-- Where a number stands; `nan` stands nowhere. -/
def place? : Binary64 → Option Place
  | .nan => none
  | .infinite negative => some (.inr negative)
  | .finite negative s e =>
    let (n, d) := magnitude s e
    some (.inl ((if negative then -(n : ℤ) else n : ℤ) / (d : ℚ)))

theorem compareRatio?_eq_iff {x : Binary64} {num : Int} {den : Nat} (positive : 0 < den) :
    x.compareRatio? num den = some .eq ↔ x.place? = some (.inl (num / (den : ℚ))) := by
  cases x with
  | nan => simp [compareRatio?, place?]
  | infinite negative => cases negative <;> simp [compareRatio?, place?]
  | finite negative s e =>
    have pos := magnitude_pos s e
    obtain ⟨⟨n, d⟩, found⟩ : ∃ p, magnitude s e = p := ⟨_, rfl⟩
    rw [found] at pos
    have nonzero : (d : ℚ) ≠ 0 := by exact_mod_cast pos.ne'
    have nonzero' : (den : ℚ) ≠ 0 := by exact_mod_cast positive.ne'
    simp only [compareRatio?, place?, found, Option.some.injEq, Sum.inl.injEq,
      div_eq_div_iff nonzero nonzero', Std.compare_eq_iff_eq]
    exact_mod_cast Iff.rfl

theorem sameInt_iff {x : Binary64} {n : Int} :
    x.sameInt n = true ↔ x.place? = some (.ofInt n) := by
  rw [sameInt, beq_iff_eq, compareRatio?_eq_iff Nat.one_pos, Place.ofInt]
  simp

theorem same_iff {x y : Binary64} :
    x.same y = true ↔ ∃ p, x.place? = some p ∧ y.place? = some p := by
  rw [same, beq_iff_eq]
  cases y with
  | nan => simp [compare?, place?]
  | infinite negative =>
    cases x with
    | infinite negative' =>
      cases negative <;> cases negative' <;> simp [compare?, place?]
    | _ => cases negative <;> simp [compare?, place?]
  | finite negative s e =>
    have pos := magnitude_pos s e
    obtain ⟨⟨n, d⟩, found⟩ : ∃ p, magnitude s e = p := ⟨_, rfl⟩
    rw [found] at pos
    have there : place? (.finite negative s e) =
        some (.inl ((if negative then -(n : ℤ) else n : ℤ) / (d : ℚ))) := by rw [place?, found]
    simp only [compare?, found, there]
    rw [compareRatio?_eq_iff pos]
    simp

end Binary64

namespace Value

/-- Where a number stands; what is no number stands nowhere. -/
def place? : Value → Option Place
  | .float x => x.place?
  | v => v.integer?.map .ofInt

/-- Truth values, integers and floating-point numbers are compared as numbers. -/
def isNumber : Value → Bool
  | .bool _ | .int _ | .float _ => true
  | _ => false

theorem integer?_eq_some_iff {v : Value} (whole : ∀ x, v ≠ .float x) {n : Int} :
    v.integer? = some n ↔ v.place? = some (.ofInt n) := by
  have injective (i : Option Int) : i = some n ↔ i.map Place.ofInt = some (.ofInt n) := by
    cases i <;> simp [Place.ofInt_inj]
  cases v with
  | float x => exact absurd rfl (whole x)
  | _ => exact injective _

theorem same_integer {a b : Value} {n : Int} (stands : a.integer? = some n) :
    a.same b = true ↔ b.place? = some (.ofInt n) := by
  have compared : a.same b = true ↔
      match b with
      | .float y => y.sameInt n = true
      | w => w.integer? = some n := by
    cases a with
    | bool | int =>
      cases stands
      cases b <;> simp [same]
    | _ => cases stands
  rw [compared]
  cases b with
  | float y => exact Binary64.sameInt_iff
  | _ => exact integer?_eq_some_iff (by simp)

theorem same_float {x : Binary64} {b : Value} :
    (Value.float x).same b = true ↔ ∃ p, x.place? = some p ∧ b.place? = some p := by
  cases b with
  | float y => exact Binary64.same_iff
  | bool | int =>
    simp [same, integer?, place?, Binary64.sameInt_iff]
  | _ => simp [same, integer?, place?]

/-- Two numbers are the same where they stand at one place. -/
theorem same_number {a b : Value} (number : a.isNumber = true) :
    a.same b = true ↔ ∃ p, a.place? = some p ∧ b.place? = some p := by
  cases a with
  | bool t => rw [same_integer rfl]; simp [place?, integer?]
  | int n => rw [same_integer rfl]; simp [place?, integer?]
  | float x => exact same_float
  | _ => cases number

theorem isNumber_of_place? {v : Value} {p : Place} (stands : v.place? = some p) :
    v.isNumber = true := by
  cases v <;> first | rfl | cases stands

/-! ## Keys -/

mutual

theorem same_symm (a : Value) (key : a.unkeyed? = none) {b : Value} (e : a.same b = true) :
    b.same a = true := by
  cases a with
  | bool | int | float =>
    obtain ⟨p, left, right⟩ := (same_number rfl).mp e
    exact (same_number (isNumber_of_place? right)).mpr ⟨p, right, left⟩
  | null => cases b <;> first | rfl | cases e
  | text s =>
    rw [same_text_left.mp e]
    simp
  | bytes octets =>
    cases b with
    | bytes octets' => exact beq_iff_eq.mpr (beq_iff_eq.mp e).symm
    | _ => cases e
  | tuple items =>
    cases b with
    | tuple items' => exact sameItems_symm items key e
    | _ => cases e
  | date year month day =>
    cases b with
    | date year' month' day' =>
      simp only [same, Bool.and_eq_true, beq_iff_eq] at e ⊢
      exact ⟨⟨e.1.1.symm, e.1.2.symm⟩, e.2.symm⟩
    | _ => cases e
  | moment m =>
    cases b with
    | moment m' => exact Moment.same_iff.mpr (Moment.same_iff.mp e).symm
    | _ => cases e
  | list | dict | set => cases key
  | object => cases e
termination_by structural a

theorem sameItems_symm (items : List Value) (keys : unkeyedItem? items = none)
    {items' : List Value} (e : sameItems items items' = true) : sameItems items' items = true := by
  cases items with
  | nil =>
    cases items' with
    | nil => rfl
    | cons => cases e
  | cons v rest =>
    cases items' with
    | nil => cases e
    | cons v' rest' =>
      obtain ⟨first, later⟩ := Option.or_eq_none_iff.mp keys
      rw [sameItems, Bool.and_eq_true] at e ⊢
      exact ⟨same_symm v first e.1, sameItems_symm rest later e.2⟩
termination_by structural items

/-- What is the same as a key is one. -/
theorem unkeyed?_of_same (a : Value) (key : a.unkeyed? = none) {b : Value}
    (e : a.same b = true) : b.unkeyed? = none := by
  cases a with
  | bool | int | float =>
    obtain ⟨p, -, stands⟩ := (same_number rfl).mp e
    cases b <;> first | rfl | cases stands
  | tuple items =>
    cases b with
    | tuple items' => exact unkeyedItem?_of_same items key e
    | _ => cases e
  | list | dict | set => cases key
  | object => cases e
  | _ => cases b <;> first | rfl | cases e
termination_by structural a

theorem unkeyedItem?_of_same (items : List Value) (keys : unkeyedItem? items = none)
    {items' : List Value} (e : sameItems items items' = true) : unkeyedItem? items' = none := by
  cases items with
  | nil =>
    cases items' with
    | nil => rfl
    | cons => cases e
  | cons v rest =>
    cases items' with
    | nil => cases e
    | cons v' rest' =>
      obtain ⟨first, later⟩ := Option.or_eq_none_iff.mp keys
      rw [sameItems, Bool.and_eq_true] at e
      rw [unkeyedItem?, unkeyed?_of_same v first e.1, unkeyedItem?_of_same rest later e.2]
      rfl
termination_by structural items

theorem same_trans (a : Value) (key : a.unkeyed? = none) {b c : Value} (e : a.same b = true)
    (e' : b.same c = true) : a.same c = true := by
  cases a with
  | bool | int | float =>
    obtain ⟨p, left, right⟩ := (same_number rfl).mp e
    obtain ⟨q, right', other⟩ := (same_number (isNumber_of_place? right)).mp e'
    cases right.symm.trans right'
    exact (same_number rfl).mpr ⟨p, left, other⟩
  | null => cases b <;> first | exact e' | cases e
  | text s =>
    rwa [same_text_left.mp e] at e'
  | bytes octets =>
    cases b with
    | bytes octets' => rwa [beq_iff_eq.mp e]
    | _ => cases e
  | tuple items =>
    cases b with
    | tuple items' =>
      cases c with
      | tuple items'' => exact sameItems_trans items key e e'
      | _ => cases e'
    | _ => cases e
  | date year month day =>
    cases b with
    | date year' month' day' =>
      simp only [same, Bool.and_eq_true, beq_iff_eq] at e
      obtain ⟨⟨rfl, rfl⟩, rfl⟩ := e
      exact e'
    | _ => cases e
  | moment m =>
    cases b with
    | moment m' =>
      cases c with
      | moment m'' =>
        exact Moment.same_iff.mpr ((Moment.same_iff.mp e).trans (Moment.same_iff.mp e'))
      | _ => cases e'
    | _ => cases e
  | list | dict | set => cases key
  | object => cases e
termination_by structural a

theorem sameItems_trans (items : List Value) (keys : unkeyedItem? items = none)
    {items' items'' : List Value} (e : sameItems items items' = true)
    (e' : sameItems items' items'' = true) : sameItems items items'' = true := by
  cases items with
  | nil =>
    cases items' with
    | nil => exact e'
    | cons => cases e
  | cons v rest =>
    cases items' with
    | nil => cases e
    | cons v' rest' =>
      cases items'' with
      | nil => cases e'
      | cons v'' rest'' =>
        obtain ⟨first, later⟩ := Option.or_eq_none_iff.mp keys
        rw [sameItems, Bool.and_eq_true] at e e' ⊢
        exact ⟨same_trans v first e.1 e'.1, sameItems_trans rest later e.2 e'.2⟩
termination_by structural items

end

/-- What a mapping can have as a key: a value that cannot change and is the same as itself, which
`nan` is not. -/
structure IsKey (v : Value) : Prop where
  keyed : v.unkeyed? = none
  itself : v.same v = true

theorem IsKey.same_left {a b : Value} (key : a.IsKey) (e : a.same b = true) (c : Value) :
    a.same c = b.same c := by
  have keyed := unkeyed?_of_same a key.keyed e
  refine Bool.eq_iff_iff.mpr ⟨fun same => ?_, fun same => ?_⟩
  · exact same_trans b keyed (same_symm a key.keyed e) same
  · exact same_trans a key.keyed e same

theorem IsKey.same_right {a b c : Value} (key : a.IsKey) (other : c.IsKey)
    (e : a.same b = true) : c.same a = c.same b := by
  refine Bool.eq_iff_iff.mpr ⟨fun same => ?_, fun same => ?_⟩
  · exact same_trans c other.keyed same e
  · exact same_trans c other.keyed same (same_symm a key.keyed e)

end Value

namespace Entries

variable {entries lower upper : Entries} {key value : Value}

/-- Everything that a mapping is bound at is a key, and no key is bound twice. -/
structure Regular (entries : Entries) : Prop where
  keys : ∀ e ∈ entries, e.1.IsKey
  differ : entries.KeysDiffer

theorem regular_iff : entries.Regular ↔
    (∀ e ∈ entries, e.1.unkeyed? = none ∧ e.1.same e.1 = true) ∧
      entries.Pairwise (fun a b : Value × Value => a.1.same b.1 = false) :=
  ⟨fun regular => ⟨fun e mem => ⟨(regular.keys e mem).keyed, (regular.keys e mem).itself⟩,
      regular.differ⟩,
    fun ⟨keys, differ⟩ => ⟨fun e mem => ⟨(keys e mem).1, (keys e mem).2⟩, differ⟩⟩

instance (entries : Entries) : Decidable entries.Regular := decidable_of_iff' _ regular_iff

theorem Regular.nil : Regular [] := ⟨by simp, .nil⟩

theorem Regular.tail {e : Value × Value} (regular : Regular (e :: entries)) : entries.Regular :=
  ⟨fun f mem => regular.keys f (List.mem_cons_of_mem e mem),
    (List.pairwise_cons.mp regular.differ).2⟩

theorem Regular.put (regular : entries.Regular) (isKey : key.IsKey) :
    (put key value entries).Regular := by
  refine ⟨fun e mem => ?_, regular.differ.put⟩
  rcases mem_put mem with there | ⟨-, rfl | ⟨v, there⟩⟩
  · exact regular.keys e there
  · exact isKey
  · exact regular.keys (e.1, v) there

theorem Regular.merge (regularLower : lower.Regular) (regularUpper : upper.Regular) :
    (merge lower upper).Regular := by
  refine ⟨fun e mem => ?_, regularLower.differ.merge⟩
  rcases mem_merge mem with ⟨v, there⟩ | ⟨v, there⟩
  · exact regularLower.keys (e.1, v) there
  · exact regularUpper.keys (e.1, v) there

/-! ## Looking up -/

theorem mem_of_get? (found : entries.get? key = some value) :
    ∃ e ∈ entries, e.1.same key = true ∧ e.2 = value := by
  induction entries with
  | nil => cases found
  | cons first rest ih =>
    obtain ⟨k, v⟩ := first
    by_cases same : k.same key = true
    · rw [get?, if_pos same] at found
      exact ⟨(k, v), by simp, same, Option.some.inj found⟩
    · rw [get?, if_neg same] at found
      obtain ⟨e, mem, fits⟩ := ih found
      exact ⟨e, List.mem_cons_of_mem _ mem, fits⟩

theorem get?_eq_none (absent : ∀ e ∈ entries, e.1.same key = false) : entries.get? key = none := by
  cases found : entries.get? key with
  | none => rfl
  | some v =>
    obtain ⟨e, mem, same, -⟩ := mem_of_get? found
    rw [absent e mem] at same
    cases same

/-- Keys that are the same find the same. -/
theorem get?_congr (keys : ∀ e ∈ entries, e.1.IsKey) {other : Value} (isKey : key.IsKey)
    (same : key.same other = true) : entries.get? key = entries.get? other := by
  induction entries with
  | nil => rfl
  | cons first rest ih =>
    rw [get?, get?, isKey.same_right (keys first (by simp)) same,
      ih fun e mem => keys e (List.mem_cons_of_mem _ mem)]

theorem get?_put (keys : ∀ e ∈ entries, e.1.IsKey) (isKey : key.IsKey) (other : Value) :
    (put key value entries).get? other =
      if key.same other then some value else entries.get? other := by
  induction entries with
  | nil => rfl
  | cons first rest ih =>
    obtain ⟨k, v⟩ := first
    by_cases found : k.same key = true
    · rw [put, if_pos found, get?, get?, (keys (k, v) (by simp)).same_left found]
      split <;> rfl
    · rw [put, if_neg found, get?, get?, ih fun e mem => keys e (List.mem_cons_of_mem _ mem)]
      by_cases hit : k.same other = true
      · have missed : ¬key.same other = true := fun same =>
          found (((keys (k, v) (by simp)).same_left hit key).trans
            (Value.same_symm key isKey.keyed same))
        rw [if_pos hit, if_neg missed, if_pos hit]
      · rw [if_neg hit, if_neg hit]

theorem Regular.get?_tail {e : Value × Value} (regular : Regular (e :: entries))
    (same : e.1.same key = true) : entries.get? key = none := by
  refine get?_eq_none fun f mem => ?_
  have apart := (List.pairwise_cons.mp regular.differ).1 f mem
  have isKey := regular.keys e (by simp)
  refine Bool.eq_false_iff.mpr fun hit => Bool.eq_false_iff.mp apart ?_
  rw [isKey.same_left same]
  exact Value.same_symm f.1 (regular.keys f (List.mem_cons_of_mem e mem)).keyed hit

/-- What an upper layer binds is laid over what is beneath; the rest shows through. -/
theorem get?_merge (regularLower : lower.Regular) (regularUpper : upper.Regular) (key : Value) :
    (merge lower upper).get? key =
      ((upper.get? key).map (·.laidOver (lower.get? key))).or (lower.get? key) := by
  induction upper generalizing lower with
  | nil => rfl
  | cons first rest ih =>
    obtain ⟨k, v⟩ := first
    have isKey := regularUpper.keys (k, v) (by simp)
    rw [merge_cons, ih (regularLower.put isKey) regularUpper.tail,
      get?_put regularLower.keys isKey]
    by_cases same : k.same key = true
    · -- The rest of the upper layer leaves the key alone, so what is put now is what is found.
      rw [regularUpper.get?_tail same, if_pos same, get?, if_pos same,
        get?_congr regularLower.keys isKey same]
      rfl
    · rw [if_neg same, get?, if_neg same]

/-! ## The order of keys -/

/-- The keys of a list that are not among those seen before, in order of their first appearance. -/
def newKeys (seen : List Value) : List Value → List Value
  | [] => []
  | k :: rest =>
    if seen.any (·.same k) then newKeys seen rest else k :: newKeys (seen ++ [k]) rest

theorem newKeys_append (seen first later : List Value) :
    newKeys seen (first ++ later) =
      newKeys seen first ++ newKeys (seen ++ newKeys seen first) later := by
  induction first generalizing seen with
  | nil => simp [newKeys]
  | cons k rest ih =>
    by_cases known : seen.any (·.same k) = true
    · simp [newKeys, known, ih]
    · simp [newKeys, known, ih, List.append_assoc]

theorem keys_put : keys (put key value entries) =
    if (keys entries).any (·.same key) then keys entries else keys entries ++ [key] := by
  induction entries with
  | nil => rfl
  | cons first rest ih =>
    obtain ⟨k, v⟩ := first
    by_cases found : k.same key = true
    · simp [put, keys, found]
    · have others : (keys ((k, v) :: rest)).any (·.same key) = (keys rest).any (·.same key) := by
        simp [keys, found]
      rw [put, if_neg found, others]
      refine (congrArg (List.cons k) ih).trans ?_
      split <;> rfl

/-- New keys follow the keys of the lower layer. -/
theorem keys_merge (lower upper : Entries) :
    keys (merge lower upper) = keys lower ++ newKeys (keys lower) (keys upper) := by
  induction upper generalizing lower with
  | nil => simp [keys, newKeys]
  | cons first rest ih =>
    obtain ⟨k, v⟩ := first
    rw [merge_cons, ih, keys_put]
    by_cases known : (keys lower).any (·.same k) = true
    · rw [if_pos known]
      simp only [keys, List.map_cons, newKeys]
      rw [if_pos (by simpa [keys] using known)]
    · rw [if_neg known]
      simp only [keys, List.map_cons, newKeys]
      rw [if_neg (by simpa [keys] using known), List.append_assoc]
      rfl

/-- Mappings with the same keys in the same order that find the same are the same. -/
theorem eq_of_keys {others : Entries} (regular : entries.Regular)
    (alike : keys entries = keys others)
    (found : ∀ k ∈ keys entries, entries.get? k = others.get? k) : entries = others := by
  induction entries generalizing others with
  | nil =>
    cases others with
    | nil => rfl
    | cons => cases alike
  | cons first rest ih =>
    obtain ⟨k, v⟩ := first
    cases others with
    | nil => cases alike
    | cons first' rest' =>
      obtain ⟨k', v'⟩ := first'
      obtain ⟨rfl, later⟩ := List.cons.inj alike
      have itself : k.same k = true := (regular.keys (k, v) (by simp)).itself
      have here := found k (by simp [keys])
      rw [get?, if_pos itself, get?, if_pos itself] at here
      cases here
      rw [ih regular.tail later fun key mem => ?_]
      have there := found key (List.mem_cons_of_mem k mem)
      obtain ⟨e, bound, rfl⟩ := List.mem_map.mp mem
      have apart := (List.pairwise_cons.mp regular.differ).1 e bound
      rwa [get?, if_neg (by rw [apart]; simp), get?, if_neg (by rw [apart]; simp)] at there

end Entries
end OptionHost
