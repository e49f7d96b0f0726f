import OptionHost.Proofs.Outcome
import OptionHost.Proofs.TokenFaults
import OptionHost.Yaml.Document

/-!
# Faults of documents

A text may have its tree and still stand for no value: the text of a scalar need not suit its
tag, and a timestamp need not be one of the calendar. These are faults, other than what makes a
document malformed. A document has a fault only if it breaks off at a token with that fault, or
if some part of its tree is read as a scalar that has it.
-/

open Std.Do

set_option mvcgen.warning false

namespace OptionHost.Yaml

/-! ## Scalars -/

/-- The faults of a scalar by its tag. -/
inductive ScalarFault : Tag → Fault → Prop
  | noTruth (word : String) : ScalarFault .bool (.unknownKey word)
  | noDigits {tag : Tag} (numeric : tag = .int ∨ tag = .float) : ScalarFault tag Scalar.noDigits
  | noInteger (base : Nat) (text : String) :
    ScalarFault .int (.wrongValue (.notInteger base text))
  | longInteger {count : Nat} (long : digitLimit < count) :
    ScalarFault .int (.wrongValue (.tooManyDigits count))
  | noFloat (text : String) : ScalarFault .float (.wrongValue (.notFloat text))
  | wideFloat : ScalarFault .float (.foreign "OverflowError" "int too large to convert to float")
  | noStamp : ScalarFault .timestamp (.unknownAttribute "NoneType" "groupdict")
  /-- A number is outside its range in the calendar, on the clock or for a zone. -/
  | noMoment (message : String) : ScalarFault .timestamp (.wrongValue (.stated message))

namespace Scalar

variable {text : String} {f : Fault}

theorem ofFault_eq_error {α : Type} {e : Except Fault α} :
    ofFault e = .error (.fault f) ↔ e = .error f := by
  cases e <;> simp [ofFault]

theorem readBool_fault (failed : readBool text = .error f) : ScalarFault .bool f := by
  rw [readBool] at failed
  split at failed <;> cases failed
  exact .noTruth _

theorem readIntegerIn_fault {base : Nat} (failed : Literal.readIntegerIn base text = .error f) :
    ScalarFault .int f := by
  rw [Literal.readIntegerIn] at failed
  simp only at failed
  split at failed
  · cases failed
    exact .noInteger _ _
  · split_ifs at failed with long
    · cases failed
      simp only [Bool.and_eq_true, decide_eq_true_eq] at long
      exact .longInteger long.2
    · cases failed
      exact .noInteger _ _

theorem readInt_fault (failed : readInt text = .error f) : ScalarFault .int f := by
  rw [readInt] at failed
  simp only at failed
  split at failed
  · cases failed
    exact .noDigits (.inl rfl)
  split at failed
  · cases failed
    exact .noDigits (.inl rfl)
  · cases failed
  · exact readIntegerIn_fault (Except.bind_pure_eq_error failed)
  · exact readIntegerIn_fault (Except.bind_pure_eq_error failed)
  · exact readIntegerIn_fault (Except.bind_pure_eq_error failed)
  · split at failed
    · have places := Except.map_eq_error.mp (Except.bind_pure_eq_error failed)
      obtain ⟨_, _, failed⟩ := Except.mapM_eq_error places
      exact readIntegerIn_fault failed
    · exact readIntegerIn_fault (Except.bind_pure_eq_error failed)

theorem addSixtieths_fault {sum : Binary64} {unit : Nat} {places : List Binary64}
    (failed : addSixtieths sum unit places = .error f) : ScalarFault .float f := by
  induction places generalizing sum unit with
  | nil => cases failed
  | cons place rest ih =>
    rw [addSixtieths] at failed
    split at failed
    · exact ih failed
    · cases failed
      exact .wideFloat

theorem literal_readFloat_fault (failed : Literal.readFloat text = .error f) :
    ScalarFault .float f := by
  rw [Literal.readFloat] at failed
  split at failed <;> cases failed
  exact .noFloat _

theorem readFloat_fault (failed : readFloat text = .error f) : ScalarFault .float f := by
  rw [readFloat] at failed
  simp only at failed
  split at failed
  · cases failed
    exact .noDigits (.inr rfl)
  split at failed
  · cases failed
  · cases failed
  · split at failed
    · rcases Except.bind_eq_error failed with failed | ⟨_, _, failed⟩
      · obtain ⟨_, _, failed⟩ := Except.mapM_eq_error failed
        exact literal_readFloat_fault failed
      · exact addSixtieths_fault (Except.bind_pure_eq_error failed)
    · exact literal_readFloat_fault (Except.bind_pure_eq_error failed)

end Scalar

/-! ### Timestamps -/

namespace Stamp

variable {α : Type} {f : Fault}

/-- What the check of a part of a timestamp ends with. -/
abbrev checked : PostCond α (.except Fault .pure) :=
  post⟨fun _ => ⌜True⌝, fun f => ⌜ScalarFault .timestamp f⌝⟩

@[spec]
theorem outside_spec (message : String) : ⦃⌜True⌝⦄ outside message ⦃checked⦄ :=
  fun _ => .noMoment message

@[spec]
theorem checkDate_spec (s : Stamp) : ⦃⌜True⌝⦄ s.checkDate ⦃checked⦄ := by
  mvcgen [checkDate]

@[spec]
theorem checkClock_spec (c : Clock) : ⦃⌜True⌝⦄ checkClock c ⦃checked⦄ := by
  mvcgen [checkClock]

theorem fault_of_spec {e : Except Fault α} (spec : ⦃⌜True⌝⦄ e ⦃checked⦄)
    (failed : e = .error f) : ScalarFault .timestamp f := by
  rw [failed] at spec
  exact spec trivial

theorem offset_fault {z : Zone} (failed : offset z = .error f) : ScalarFault .timestamp f := by
  rw [offset.eq_def] at failed
  split at failed
  · cases failed
  next west hours minutes =>
    simp only at failed
    split at failed
    all_goals
      split at failed
      · exact fault_of_spec (outside_spec _) (Except.bind_pure_eq_error failed)
      · cases failed

theorem toValue_fault {s : Stamp} (failed : s.toValue = .error f) : ScalarFault .timestamp f := by
  rw [toValue] at failed
  split at failed
  · rcases Except.bind_eq_error failed with failed | ⟨_, _, failed⟩
    · exact fault_of_spec (checkDate_spec s) failed
    · cases failed
  next c _ =>
    rcases Except.bind_eq_error failed with failed | ⟨_, _, failed⟩
    · cases zone : c.zone with
      | none =>
        rw [zone] at failed
        cases failed
      | some z =>
        rw [zone] at failed
        exact offset_fault (Except.bind_pure_eq_error failed)
    rcases Except.bind_eq_error failed with failed | ⟨_, _, failed⟩
    · exact fault_of_spec (checkDate_spec s) failed
    · exact fault_of_spec (checkClock_spec c) (Except.bind_pure_eq_error failed)

end Stamp

theorem Scalar.read_fault {tag : Tag} {text : String} {f : Fault}
    (failed : read tag text = .error (.fault f)) : ScalarFault tag f := by
  cases tag with
  | bool => exact readBool_fault (Except.map_eq_error.mp (ofFault_eq_error.mp failed))
  | int => exact readInt_fault (Except.map_eq_error.mp (ofFault_eq_error.mp failed))
  | float => exact readFloat_fault (Except.map_eq_error.mp (ofFault_eq_error.mp failed))
  | binary =>
    have failed := Except.map_eq_error.mp failed
    rw [readBinary] at failed
    split at failed
    · split at failed <;> cases failed
    · cases failed
  | timestamp =>
    have failed := ofFault_eq_error.mp failed
    rw [readTimestamp] at failed
    split at failed
    · exact Stamp.toValue_fault failed
    · cases failed
      exact .noStamp
  | _ => cases failed

/-! ## Trees -/

namespace Staged

variable {α β : Type} {f : Fault} {l : Staged α} {m : Staged β}

/-- A part of a document ends with a fault. -/
def Raises (f : Fault) (l : Staged α) : Prop := ∃ level, l = .error (level, .fault f)

@[simp]
theorem not_raises_ok {a : α} : ¬Raises f (.ok a : Staged α) := by
  rintro ⟨_, failed⟩
  cases failed

@[simp]
theorem not_raises_malformed : ¬Raises f (malformed : Staged α) := by
  rintro ⟨_, failed⟩
  cases failed

@[simp]
theorem raises_ofReading {r : Reading α} : Raises f (ofReading r) ↔ r = .error (.fault f) := by
  cases r <;> simp [Raises, ofReading, Except.mapError]

@[simp]
theorem raises_below : Raises f (below l) ↔ Raises f l := by
  constructor
  · rintro ⟨_, failed⟩
    obtain ⟨⟨level, t⟩, failed, same⟩ := Except.mapError_eq_error.mp failed
    cases same
    exact ⟨level, failed⟩
  · rintro ⟨level, rfl⟩
    exact ⟨level + 1, rfl⟩

@[simp]
theorem raises_map {g : α → β} : Raises f (l.map g : Staged β) ↔ Raises f l := by
  simp [Raises, Except.map_eq_error]

theorem Raises.of_both (raises : (both l m).Raises f) : l.Raises f ∨ m.Raises f := by
  obtain ⟨level, failed⟩ := raises
  cases l <;> cases m
  · rw [both] at failed
    split at failed
    · exact .inr ⟨level, congrArg _ (Except.error.inj failed)⟩
    · exact .inl ⟨level, congrArg _ (Except.error.inj failed)⟩
  · exact .inl ⟨level, congrArg _ (Except.error.inj failed)⟩
  · exact .inr ⟨level, congrArg _ (Except.error.inj failed)⟩
  · cases failed

theorem Raises.of_all {parts : List (Staged α)} (raises : (all parts).Raises f) :
    ∃ part ∈ parts, part.Raises f := by
  induction parts with
  | nil => exact absurd raises not_raises_ok
  | cons part rest ih =>
    rcases Raises.of_both (raises_map.mp raises) with first | later
    · exact ⟨part, List.mem_cons_self, first⟩
    · obtain ⟨part, mem, later⟩ := ih later
      exact ⟨part, List.mem_cons_of_mem _ mem, later⟩

end Staged

namespace Member

variable {members : List Member} {f : Fault}

/-- The key or the value of a member ends with a fault. -/
def Raises (f : Fault) (m : Member) : Prop := m.key.Raises f ∨ m.value.Raises f

theorem raises_of_all (raises : (Staged.all (members.map read)).Raises f) :
    ∃ m ∈ members, m.Raises f := by
  obtain ⟨part, mem, raises⟩ := raises.of_all
  obtain ⟨m, member, rfl⟩ := List.mem_map.mp mem
  exact ⟨m, member, raises.of_both⟩

theorem raises_of_entries (raises : (entries members).Raises f) : ∃ m ∈ members, m.Raises f :=
  raises_of_all (Staged.raises_map.mp raises)

theorem raises_of_tuples (raises : (tuples members).Raises f) : ∃ m ∈ members, m.Raises f :=
  raises_of_all (Staged.raises_map.mp raises)

end Member

namespace Node

/-- Some part of a tree is read as a scalar and has a fault. -/
inductive Impossible (f : Fault) : Node → Prop
  | scalar {tag : Tag} {text : String} (read : Scalar.read tag text = .error (.fault f)) :
    Impossible f (.scalar tag text)
  /-- A mapping with the tag of a scalar stands for its default value. -/
  | standIn {tag : Tag} {pairs : List (Node × Node)} {text : String}
    (standsFor : (Node.mapping tag pairs).text? = some text)
    (read : Scalar.read tag text = .error (.fault f)) : Impossible f (.mapping tag pairs)
  /-- Such a mapping is never a timestamp. -/
  | stamped {pairs : List (Node × Node)} {text : String}
    (standsFor : (Node.mapping .timestamp pairs).text? = some text)
    (wrong : f = .wrongType (.stated "expected string or bytes-like object, got 'list'")) :
    Impossible f (.mapping .timestamp pairs)
  | item {tag : Tag} {items : List Node} {n : Node} (mem : n ∈ items)
    (below : Impossible f n) : Impossible f (.sequence tag items)
  | key {tag : Tag} {pairs : List (Node × Node)} {k v : Node} (mem : (k, v) ∈ pairs)
    (below : Impossible f k) : Impossible f (.mapping tag pairs)
  | value {tag : Tag} {pairs : List (Node × Node)} {k v : Node} (mem : (k, v) ∈ pairs)
    (below : Impossible f v) : Impossible f (.mapping tag pairs)

/-- The key or the value of a pair is impossible. -/
def ImpossiblePair (f : Fault) (p : Node × Node) : Prop := p.1.Impossible f ∨ p.2.Impossible f

variable {f : Fault}

theorem Impossible.among {tag : Tag} {items : List Node} (found : ∃ n ∈ items, n.Impossible f) :
    Impossible f (.sequence tag items) := by
  obtain ⟨n, mem, below⟩ := found
  exact .item mem below

theorem Impossible.within {tag : Tag} {pairs : List (Node × Node)}
    (found : ∃ p ∈ pairs, ImpossiblePair f p) : Impossible f (.mapping tag pairs) := by
  obtain ⟨⟨k, v⟩, mem, below | below⟩ := found
  · exact .key mem below
  · exact .value mem below

theorem impossible_of_readAsScalar {tag : Tag} {pairs : List (Node × Node)}
    (raises : (readAsScalar (.mapping tag pairs)).Raises f) :
    Impossible f (.mapping tag pairs) := by
  rw [readAsScalar] at raises
  split at raises
  · simp at raises
  next stamp standsFor =>
    obtain ⟨_, failed⟩ := raises
    cases failed
    obtain rfl : tag = .timestamp := stamp
    exact .stamped standsFor rfl
  next text standsFor _ _ => exact .standIn standsFor (Staged.raises_ofReading.mp raises)
  · simp at raises

mutual

/-- A tree that stands for no value because of a fault has a part with that fault. -/
theorem impossible_of_read (n : Node) (raises : n.read.Raises f) : n.Impossible f := by
  cases n with
  | scalar tag text =>
    rw [read] at raises
    split at raises
    · simp at raises
    · exact .scalar (Staged.raises_ofReading.mp raises)
  | sequence tag items =>
    cases tag with
    | seq =>
      rw [read] at raises
      simp only [Staged.raises_below, Staged.raises_map] at raises
      exact .among (impossible_of_readItems items raises.of_all)
    | omap | pairs =>
      rw [read] at raises
      have raises := Staged.raises_below.mp raises
      split at raises
      next members singles =>
        exact .among (impossible_of_readSingles items singles (Member.raises_of_tuples raises))
      next members singles =>
        rcases (Staged.raises_map.mp raises).of_both with raises | raises
        · exact .among (impossible_of_readSingles items singles (Member.raises_of_tuples raises))
        · simp at raises
    | _ => simp [read] at raises
  | mapping tag pairs =>
    cases tag with
    | map | set =>
      rw [read] at raises
      have raises := Staged.raises_below.mp raises
      split at raises
      next merged own members =>
        obtain ⟨m, mem, raises⟩ := Member.raises_of_entries (Staged.raises_map.mp raises)
        exact .within (impossible_of_readPairs pairs members m mem raises)
      next => simp at raises
    | seq | omap | pairs => simp [read] at raises
    | _ =>
      rw [read] at raises
      · exact impossible_of_readAsScalar raises
      all_goals rintro ⟨⟩
  | cycle isMapping => simp [read] at raises
termination_by structural n

theorem impossible_of_readItems (items : List Node)
    (raises : ∃ part ∈ readItems items, part.Raises f) : ∃ n ∈ items, n.Impossible f := by
  cases items with
  | nil => simp [readItems] at raises
  | cons n rest =>
    simp only [readItems, List.exists_mem_cons_iff] at raises ⊢
    exact raises.imp (impossible_of_read n) (impossible_of_readItems rest)
termination_by structural items

theorem impossible_of_readSingles (items : List Node) {members : List Member} {complete : Bool}
    (singles : readSingles items = (members, complete)) (raises : ∃ m ∈ members, m.Raises f) :
    ∃ n ∈ items, n.Impossible f := by
  cases items with
  | nil =>
    cases singles
    simp at raises
  | cons n rest =>
    rw [readSingles] at singles
    split at singles
    next m single =>
      cases singles
      simp only [List.exists_mem_cons_iff] at raises ⊢
      exact raises.imp (impossible_of_readSingle n single) (impossible_of_readSingles rest rfl)
    next =>
      cases singles
      simp at raises
termination_by structural items

theorem impossible_of_readSingle (n : Node) {m : Member} (single : readSingle n = some m)
    (raises : m.Raises f) : n.Impossible f := by
  cases n with
  | mapping tag pairs => exact .within (impossible_of_readOnly pairs single raises)
  | _ => cases single
termination_by structural n

theorem impossible_of_readOnly (pairs : List (Node × Node)) {m : Member}
    (only : readOnly pairs = some m) (raises : m.Raises f) : ∃ p ∈ pairs, ImpossiblePair f p := by
  cases pairs with
  | nil => cases only
  | cons p rest =>
    rw [readOnly] at only
    split at only
    · cases only
      exact ⟨p, List.mem_cons_self, impossible_of_readPair p raises⟩
    · cases only
termination_by structural pairs

theorem impossible_of_readPair (p : Node × Node) (raises : (readPair p).Raises f) :
    ImpossiblePair f p := by
  obtain ⟨k, v⟩ := p
  exact raises.imp (impossible_of_read k) (impossible_of_read v)
termination_by structural p

theorem impossible_of_readPairs (pairs : List (Node × Node)) {merged own : List Member}
    (found : readPairs pairs = some (merged, own)) :
    ∀ m ∈ merged ++ own, m.Raises f → ∃ p ∈ pairs, ImpossiblePair f p := by
  cases pairs with
  | nil =>
    cases found
    simp
  | cons p rest =>
    rw [readPairs] at found
    split at found
    next => cases found
    next merged₁ own₁ entry =>
      split at found
      next => cases found
      next merged₂ own₂ others =>
        cases found
        have first := impossible_of_readEntry p entry
        have later := impossible_of_readPairs rest others
        intro m mem raises
        simp only [List.mem_append, List.exists_mem_cons_iff] at mem first later ⊢
        rcases mem with (h | h) | h | h
        · exact .inl (first m (.inl h) raises)
        · exact .inr (later m (.inl h) raises)
        · exact .inl (first m (.inr h) raises)
        · exact .inr (later m (.inr h) raises)
termination_by structural pairs

theorem impossible_of_readEntry (p : Node × Node) {merged own : List Member}
    (found : readEntry p = some (merged, own)) :
    ∀ m ∈ merged ++ own, m.Raises f → ImpossiblePair f p := by
  obtain ⟨k, v⟩ := p
  intro m mem raises
  rw [readEntry] at found
  -- By the key: it merges others in, stands for the default value, or is a key like any other.
  split at found
  · split at found
    next members mergedIn =>
      cases found
      exact .inr (impossible_of_readMerged v mergedIn m (by simpa using mem) raises)
    next => cases found
  · split at found
    · cases found
      obtain rfl : m = ⟨_, v.read⟩ := by simpa using mem
      exact .inr (impossible_of_read v (raises.resolve_left Staged.not_raises_ok))
    · cases found
      obtain rfl : m = ⟨_, v.read⟩ := by simpa using mem
      exact .inr (impossible_of_read v (raises.resolve_left Staged.not_raises_malformed))
  · cases found
    obtain rfl : m = ⟨_, v.read⟩ := by simpa using mem
    refine raises.imp (fun raises => ?_) (impossible_of_read v)
    split at raises
    · exact impossible_of_read k raises
    · simp at raises
termination_by structural p

theorem impossible_of_readMerged (n : Node) {members : List Member}
    (found : readMerged n = some members) : ∀ m ∈ members, m.Raises f → n.Impossible f := by
  cases n with
  | scalar tag text => cases found
  | sequence tag items =>
    exact fun m mem raises => .among (impossible_of_readMergedItems items found m mem raises)
  | mapping tag pairs =>
    rw [readMerged] at found
    split at found
    next merged own members =>
      cases found
      exact fun m mem raises => .within (impossible_of_readPairs pairs members m mem raises)
    next => cases found
  | cycle isMapping =>
    cases isMapping <;> cases found
    simp
termination_by structural n

theorem impossible_of_readMergedItems (items : List Node) {members : List Member}
    (found : readMergedItems items = some members) :
    ∀ m ∈ members, m.Raises f → ∃ n ∈ items, n.Impossible f := by
  cases items with
  | nil =>
    cases found
    simp
  | cons n rest =>
    rw [readMergedItems] at found
    split at found
    next first later item others =>
      cases found
      intro m mem raises
      simp only [List.exists_mem_cons_iff]
      rcases List.mem_append.mp mem with h | h
      · exact .inr (impossible_of_readMergedItems rest others m h raises)
      · exact .inl (impossible_of_readMergedItem n item m h raises)
    next => cases found
termination_by structural items

theorem impossible_of_readMergedItem (n : Node) {members : List Member}
    (found : readMergedItem n = some members) : ∀ m ∈ members, m.Raises f → n.Impossible f := by
  cases n with
  | scalar tag text => cases found
  | sequence tag items => cases found
  | mapping tag pairs =>
    rw [readMergedItem] at found
    split at found
    next merged own members =>
      cases found
      exact fun m mem raises => .within (impossible_of_readPairs pairs members m mem raises)
    next => cases found
  | cycle isMapping =>
    cases isMapping <;> cases found
    simp
termination_by structural n

end

end Node

/-! ## Documents -/

/-- The faults that a text can have: at a token, or in some part of its tree. -/
inductive Impossible (text : List Char) (f : Fault) : Prop
  | token (broken : .broken (.fault f) ∈ Token.ofText text)
  | part {n : Node} (tree : Node.ofText? text = .ok (some n)) (impossible : n.Impossible f)

variable {text : List Char} {f : Fault}

theorem impossible_of_readDocument (failed : readDocument text = .error (.fault f)) :
    Impossible text f := by
  rw [readDocument] at failed
  split at failed
  · split at failed
    next t broken =>
      cases failed
      exact .token (Node.broken_of_ofText? broken)
    · cases failed
    next n tree =>
      obtain ⟨⟨level, t⟩, failed, same⟩ := Except.mapError_eq_error.mp failed
      cases same
      exact .part tree (Node.impossible_of_read n ⟨level, failed⟩)
  · cases failed

theorem Node.Impossible.cause {n : Node} (impossible : n.Impossible f) :
    (∃ tag, ScalarFault tag f) ∨
      f = .wrongType (.stated "expected string or bytes-like object, got 'list'") := by
  induction impossible with
  | scalar read => exact .inl ⟨_, Scalar.read_fault read⟩
  | standIn _ read => exact .inl ⟨_, Scalar.read_fault read⟩
  | stamped _ wrong => exact .inr wrong
  | item _ _ ih | key _ _ ih | value _ _ ih => exact ih

/-- The classes of the faults of documents. -/
def faultClasses : List String :=
  ["ValueError", "OverflowError", "KeyError", "IndexError", "AttributeError", "TypeError"]

theorem Impossible.className_mem (impossible : Impossible text f) :
    f.className ∈ faultClasses := by
  cases impossible with
  | token broken =>
    have fault : TokenFault f := Token.within_of_mem_ofText _ broken
    cases fault <;> simp [faultClasses, Fault.className]
  | part tree impossible =>
    rcases impossible.cause with ⟨tag, fault⟩ | rfl
    · cases fault <;> simp [faultClasses, Fault.className, Scalar.noDigits]
    · simp [faultClasses, Fault.className]

end OptionHost.Yaml
