import OptionHost.Proofs.FailedRequests
import OptionHost.Proofs.UnderWay

/-!
# Rounds of calls

A write that changes an option is followed by a round of calls, one for each registration of that
moment. Rounds nest: a listener that writes starts a round of its own, which is over before the
next listener of the outer round is called. So the calls of one round do not stand together in the
journal, and equal changes may be called out by several rounds. What is shown here is that the calls
can be matched with the writes all the same, every call with one write and every write with all of
its round, whatever the listeners do meanwhile. A round ends early only at a listener whose failure
cannot be written about.
-/

namespace OptionHost

open Act

/-- The party that an entry is about, and the change that it is told of. -/
def Entry.mark? : Entry → Option (ListenerId × Change)
  | .notified id c | .cut id c => some (id, c)
  | _ => none

/-- The marks of a journal that are assigned to a position of it, or to none. -/
def marksOf (mark : Entry → Option (ListenerId × Change)) (owner : Nat → Option Nat)
    (place : Option Nat) (es : List Entry) : List (ListenerId × Change) :=
  es.zipIdx.filterMap fun p => if owner p.2 = place then mark p.1 else none

/-- The calls that are assigned to a position. -/
abbrev callsOf := marksOf Entry.event?

/-- The calls at which a telling broke off, likewise. -/
abbrev cutsOf := marksOf Entry.cut?

/-- The calls that a write calls for: one for each registration in order, if it is a change. -/
def Store.round (t : Store) (c : Change) : List (ListenerId × Change) :=
  (t.audience c).map fun id => (id, c)

/-- What was owed was called in full, or in order up to a call at which it broke off. -/
def Heard (owed calls cuts : List (ListenerId × Change)) : Prop :=
  (calls = owed ∧ cuts = []) ∨
    ∃ told p rest, owed = told ++ p :: rest ∧ calls = told ++ [p] ∧ cuts = [p]

/-- An assignment of calls to the writes before them, those apart that are owed from earlier on. -/
structure Assigned (calls cuts : List (ListenerId × Change)) (es : List Entry)
    (owner : Nat → Option Nat) : Prop where
  made : ∀ i j e p, es[j]? = some e → e.mark? = some p → owner j = some i →
    i < j ∧ ∃ t, es[i]? = some (.stored t (some p.2))
  rounds : ∀ i t c, es[i]? = some (.stored t (some c)) →
    Heard (t.round c) (callsOf owner (some i) es) (cutsOf owner (some i) es)
  calls : callsOf owner none es = calls
  cuts : cutsOf owner none es = cuts

theorem Entry.mark?_of_event? {e : Entry} {p : ListenerId × Change} (told : e.event? = some p) :
    e.mark? = some p := by
  cases e with
  | notified id c => exact told
  | _ => cases told

theorem Entry.mark?_of_cut? {e : Entry} {p : ListenerId × Change} (cut : e.cut? = some p) :
    e.mark? = some p := by
  cases e with
  | cut id c => exact cut
  | _ => cases cut

namespace Heard

variable {owed calls cuts : List (ListenerId × Change)} {p : ListenerId × Change}

theorem full (owed : List (ListenerId × Change)) : Heard owed owed [] := .inl ⟨rfl, rfl⟩

theorem cons (heard : Heard owed calls cuts) (p : ListenerId × Change) :
    Heard (p :: owed) (p :: calls) cuts := by
  obtain ⟨rfl, rfl⟩ | ⟨told, q, rest, rfl, rfl, rfl⟩ := heard
  · exact full _
  · exact .inr ⟨p :: told, q, rest, rfl, rfl, rfl⟩

theorem broken (p : ListenerId × Change) (rest : List (ListenerId × Change)) :
    Heard (p :: rest) [p] [p] :=
  .inr ⟨[], p, rest, rfl, rfl, rfl⟩

theorem of_nil (heard : Heard [] calls cuts) : calls = [] ∧ cuts = [] := by
  obtain ⟨rfl, rfl⟩ | ⟨told, q, rest, impossible, -, -⟩ := heard
  · exact ⟨rfl, rfl⟩
  · simp at impossible

theorem mem (heard : Heard owed calls cuts) (member : p ∈ calls ∨ p ∈ cuts) : p ∈ owed := by
  obtain ⟨rfl, rfl⟩ | ⟨told, q, rest, rfl, rfl, rfl⟩ := heard
  · simpa using member
  · simp only [List.mem_append, List.mem_cons] at member ⊢
    tauto

end Heard

section

variable {mark : Entry → Option (ListenerId × Change)} {owner other second : Nat → Option Nat}
  {place : Option Nat} {es ds : List Entry}

theorem marksOf_append : marksOf mark owner place (es ++ ds) =
    marksOf mark owner place es ++ marksOf mark (fun j => owner (es.length + j)) place ds := by
  have shifted : ds.zipIdx es.length = ds.zipIdx.map fun p => (p.1, es.length + p.2) :=
    List.zipIdx_eq_map_add
  unfold marksOf
  rw [List.zipIdx_append, List.filterMap_append, Nat.zero_add, shifted, List.filterMap_map]
  rfl

theorem marksOf_congr {place' : Option Nat}
    (same : ∀ j e, es[j]? = some e → (owner j = place ↔ other j = place')) :
    marksOf mark owner place es = marksOf mark other place' es := by
  refine List.filterMap_congr fun p member => ?_
  have found := List.mem_zipIdx_iff_getElem?.mp member
  simp only [same p.2 p.1 found]

theorem mem_marksOf {j : Nat} {e : Entry} {p : ListenerId × Change} (found : es[j]? = some e)
    (marked : mark e = some p) (owned : owner j = place) : p ∈ marksOf mark owner place es :=
  List.mem_filterMap.mpr
    ⟨(e, j), List.mem_zipIdx_iff_getElem?.mpr found, (if_pos owned).trans marked⟩

theorem mem_callsOf_or_cutsOf {j : Nat} {e : Entry} {p : ListenerId × Change}
    (found : es[j]? = some e) (marked : e.mark? = some p) (owned : owner j = place) :
    p ∈ callsOf owner place es ∨ p ∈ cutsOf owner place es := by
  cases e with
  | notified id c => exact .inl (mem_marksOf found marked owned)
  | cut id c => exact .inr (mem_marksOf found marked owned)
  | _ => cases marked

theorem marksOf_eq_nil
    (unowned : ∀ j e p, es[j]? = some e → mark e = some p → owner j ≠ place) :
    marksOf mark owner place es = [] := by
  refine List.filterMap_eq_nil_iff.mpr fun p member => ?_
  have found := List.mem_zipIdx_iff_getElem?.mp member
  cases marked : mark p.1 with
  | none => exact ite_self _
  | some q => exact if_neg (unowned p.2 p.1 q found marked)

/-- The assignment of two journals in a row. -/
def joined (n : Nat) (first second : Nat → Option Nat) (j : Nat) : Option Nat :=
  if j < n then first j else (second (j - n)).map (n + ·)

theorem joined_early {n j : Nat} (within : j < n) : joined n owner second j = owner j :=
  if_pos within

theorem joined_late (n j : Nat) : joined n owner second (n + j) = (second j).map (n + ·) := by
  unfold joined
  rw [if_neg (by omega), Nat.add_sub_cancel_left]

theorem marksOf_joined : marksOf mark (joined es.length owner second) place (es ++ ds) =
    marksOf mark owner place es ++
      marksOf mark (fun j => (second j).map (es.length + ·)) place ds := by
  rw [marksOf_append]
  congr 1
  · refine marksOf_congr fun j e found => ?_
    rw [joined_early (List.getElem?_eq_some_iff.mp found).1]
  · exact marksOf_congr fun j e found => by rw [joined_late]

theorem marksOf_joined_none : marksOf mark (joined es.length owner second) none (es ++ ds) =
    marksOf mark owner none es ++ marksOf mark second none ds := by
  rw [marksOf_joined]
  congr 1
  refine marksOf_congr fun j e _ => ?_
  cases second j <;> simp

theorem marksOf_joined_early {i : Nat} (within : i < es.length) :
    marksOf mark (joined es.length owner second) (some i) (es ++ ds) =
      marksOf mark owner (some i) es := by
  have none : marksOf mark (fun j => (second j).map (es.length + ·)) (some i) ds = [] := by
    refine marksOf_eq_nil fun j e p _ _ owned => ?_
    obtain ⟨i, -, rfl⟩ := Option.map_eq_some_iff.mp owned
    omega
  rw [marksOf_joined, none, List.append_nil]

theorem marksOf_joined_late {k : Nat}
    (before : ∀ j e p, es[j]? = some e → mark e = some p → owner j ≠ some (es.length + k)) :
    marksOf mark (joined es.length owner second) (some (es.length + k)) (es ++ ds) =
      marksOf mark second (some k) ds := by
  rw [marksOf_joined, marksOf_eq_nil before, List.nil_append]
  refine marksOf_congr fun j e _ => ?_
  cases second j <;> simp

/-- The assignment of a journal behind a write: what was owed is owed by the write. -/
def headed (owner : Nat → Option Nat) : Nat → Option Nat
  | 0 => none
  | j + 1 => some ((owner j).elim 0 (· + 1))

theorem marksOf_headed {e : Entry} (unmarked : mark e = none) :
    marksOf mark (headed owner) place (e :: es) =
      marksOf mark (fun j => some ((owner j).elim 0 (· + 1))) place es := by
  rw [show e :: es = [e] ++ es from rfl, marksOf_append]
  have none : marksOf mark (headed owner) place [e] = [] := by
    simp [marksOf, unmarked]
  rw [none, List.nil_append]
  refine marksOf_congr fun j e _ => ?_
  rw [List.length_singleton, Nat.add_comm]
  rfl

theorem marksOf_headed_none {e : Entry} (unmarked : mark e = none) :
    marksOf mark (headed owner) none (e :: es) = [] := by
  rw [marksOf_headed unmarked]
  exact marksOf_eq_nil fun _ _ _ _ _ => Option.some_ne_none _

theorem marksOf_headed_zero {e : Entry} (unmarked : mark e = none) :
    marksOf mark (headed owner) (some 0) (e :: es) = marksOf mark owner none es := by
  rw [marksOf_headed unmarked]
  refine marksOf_congr fun j e _ => ?_
  cases owner j <;> simp

theorem marksOf_headed_succ {e : Entry} (unmarked : mark e = none) (i : Nat) :
    marksOf mark (headed owner) (some (i + 1)) (e :: es) = marksOf mark owner (some i) es := by
  rw [marksOf_headed unmarked]
  refine marksOf_congr fun j e _ => ?_
  cases owner j <;> simp

end

namespace Assigned

variable {calls cuts later laterCuts : List (ListenerId × Change)} {es ds during : List Entry}
  {owner second first : Nat → Option Nat} {id : ListenerId} {c : Change}

theorem nil : Assigned [] [] [] fun _ => none :=
  ⟨by rintro i j e p ⟨⟩, by rintro i t c ⟨⟩, rfl, rfl⟩

theorem single {e : Entry} (other : ∀ t c, e ≠ .stored t (some c)) :
    Assigned e.event?.toList e.cut?.toList [e] fun _ => none := by
  refine ⟨?_, ?_, ?_, ?_⟩
  · rintro i j e p - - ⟨⟩
  · intro i t c found
    obtain ⟨_, same⟩ := List.getElem?_eq_some_iff.mp found
    rw [List.getElem_singleton] at same
    exact absurd same (other t c)
  · cases h : e.event? <;> simp [marksOf, h]
  · cases h : e.cut? <;> simp [marksOf, h]

theorem append (first : Assigned calls cuts es owner) (rest : Assigned later laterCuts ds second) :
    Assigned (calls ++ later) (cuts ++ laterCuts) (es ++ ds) (joined es.length owner second) := by
  -- The marks of the first journal are assigned within it.
  have before {mark : Entry → Option (ListenerId × Change)}
      (known : ∀ {e p}, mark e = some p → e.mark? = some p) (k j : Nat) (e : Entry)
      (p : ListenerId × Change) (found : es[j]? = some e) (marked : mark e = some p) :
      owner j ≠ some (es.length + k) := by
    intro owned
    obtain ⟨earlier, -⟩ := first.made _ j e p found (known marked) owned
    have := (List.getElem?_eq_some_iff.mp found).1
    omega
  refine ⟨?_, ?_, ?_, ?_⟩
  · intro i j e p found marked owned
    by_cases within : j < es.length
    · rw [List.getElem?_append_left within] at found
      rw [joined_early within] at owned
      obtain ⟨earlier, t, wrote⟩ := first.made i j e p found marked owned
      exact ⟨earlier, t, by rwa [List.getElem?_append_left (by omega)]⟩
    · obtain ⟨k, rfl⟩ := Nat.exists_eq_add_of_le (Nat.le_of_not_lt within)
      rw [List.getElem?_append_right (by omega), Nat.add_sub_cancel_left] at found
      rw [joined_late, Option.map_eq_some_iff] at owned
      obtain ⟨i, owned, rfl⟩ := owned
      obtain ⟨earlier, t, wrote⟩ := rest.made i k e p found marked owned
      refine ⟨by omega, t, ?_⟩
      rwa [List.getElem?_append_right (by omega), Nat.add_sub_cancel_left]
  · intro i t c found
    by_cases within : i < es.length
    · rw [List.getElem?_append_left within] at found
      rw [callsOf, cutsOf, marksOf_joined_early within, marksOf_joined_early within]
      exact first.rounds i t c found
    · obtain ⟨k, rfl⟩ := Nat.exists_eq_add_of_le (Nat.le_of_not_lt within)
      rw [List.getElem?_append_right (by omega), Nat.add_sub_cancel_left] at found
      rw [callsOf, cutsOf, marksOf_joined_late (before Entry.mark?_of_event? k),
        marksOf_joined_late (before Entry.mark?_of_cut? k)]
      exact rest.rounds k t c found
  · exact marksOf_joined_none.trans (congrArg₂ _ first.calls rest.calls)
  · exact marksOf_joined_none.trans (congrArg₂ _ first.cuts rest.cuts)

theorem wrote {t : Store} (round : Assigned calls cuts es owner)
    (heard : Heard (t.round c) calls cuts) :
    Assigned [] [] (.stored t (some c) :: es) (headed owner) := by
  refine ⟨?_, ?_, marksOf_headed_none rfl, marksOf_headed_none rfl⟩
  · intro i j e p found marked owned
    cases j with
    | zero =>
      cases found
      cases marked
    | succ j =>
      rw [List.getElem?_cons_succ] at found
      cases owned
      cases owed : owner j with
      | some i =>
        obtain ⟨before, t, wrote⟩ := round.made i j e p found marked owed
        exact ⟨Nat.succ_lt_succ before, t, wrote⟩
      | none =>
        -- What is owed is the round of this write, and so tells of its change.
        have member := mem_callsOf_or_cutsOf found marked owed
        rw [round.calls, round.cuts] at member
        obtain ⟨_, -, rfl⟩ := List.mem_map.mp (heard.mem member)
        exact ⟨Nat.succ_pos j, t, rfl⟩
  · intro i t' c' found
    cases i with
    | zero =>
      cases found
      rw [← round.calls, ← round.cuts] at heard
      rw [callsOf, cutsOf, marksOf_headed_zero rfl, marksOf_headed_zero rfl]
      exact heard
    | succ i =>
      rw [callsOf, cutsOf, marksOf_headed_succ rfl, marksOf_headed_succ rfl]
      exact round.rounds i t' c' found

/-- What a party did when it was called is done before the next one is. -/
theorem told (heard : Assigned [] [] during first) (rest : Assigned calls cuts es second) :
    ∃ owner, Assigned ((id, c) :: calls) cuts (.notified id c :: (during ++ es)) owner := by
  have called : Assigned [(id, c)] [] [.notified id c] fun _ => none :=
    single (e := .notified id c) (by rintro _ _ ⟨⟩)
  exact ⟨_, called.append (heard.append rest)⟩

theorem broke (heard : Assigned [] [] during first) (rest : Assigned [] [] es second) :
    ∃ owner,
      Assigned [(id, c)] [(id, c)] (.notified id c :: (during ++ .cut id c :: es)) owner := by
  have cut : Assigned [] [(id, c)] [.cut id c] fun _ => none :=
    single (e := .cut id c) (by rintro _ _ ⟨⟩)
  exact heard.told (cut.append rest)

end Assigned

theorem Story.assigned {owed : List (ListenerId × Change)} {es : List Entry}
    (story : Story owed es) :
    ∃ owner calls cuts, Assigned calls cuts es owner ∧ Heard owed calls cuts := by
  induction story with
  | nil => exact ⟨_, _, _, .nil, .full []⟩
  | @aside owed e es aside _ ih =>
    obtain ⟨owner, calls, cuts, assigned, heard⟩ := ih
    have other : ∀ t c, e ≠ .stored t (some c) := by
      rintro t c rfl
      cases aside.1
    have whole := (Assigned.single other).append assigned
    rw [aside.2.1, aside.2.2] at whole
    exact ⟨_, _, _, whole, heard⟩
  | @kept t es _ ih =>
    obtain ⟨owner, calls, cuts, assigned, heard⟩ := ih
    have kept : Assigned [] [] [.stored t none] fun _ => none :=
      Assigned.single (e := .stored t none) (by rintro _ _ ⟨⟩)
    exact ⟨_, _, _, kept.append assigned, heard⟩
  | wrote _ ih =>
    obtain ⟨owner, calls, cuts, assigned, heard⟩ := ih
    exact ⟨_, _, _, assigned.wrote heard, .full []⟩
  | told _ _ ih₁ ih₂ =>
    obtain ⟨first, calls₁, cuts₁, during, nothing⟩ := ih₁
    obtain ⟨second, calls, cuts, assigned, heard⟩ := ih₂
    obtain ⟨rfl, rfl⟩ := nothing.of_nil
    obtain ⟨owner, whole⟩ := during.told assigned
    exact ⟨owner, _, _, whole, heard.cons _⟩
  | broke _ _ ih₁ ih₂ =>
    obtain ⟨first, calls₁, cuts₁, during, nothing⟩ := ih₁
    obtain ⟨second, calls, cuts, assigned, nothing'⟩ := ih₂
    obtain ⟨rfl, rfl⟩ := nothing.of_nil
    obtain ⟨rfl, rfl⟩ := nothing'.of_nil
    obtain ⟨owner, whole⟩ := during.broke assigned
    exact ⟨owner, _, _, whole, .broken _ _⟩

theorem Story.closed {es : List Entry} (story : Story [] es) :
    ∃ owner, Assigned [] [] es owner := by
  obtain ⟨owner, calls, cuts, assigned, nothing⟩ := story.assigned
  obtain ⟨rfl, rfl⟩ := nothing.of_nil
  exact ⟨owner, assigned⟩

/-! ## Writes and the store -/

namespace Store

variable {s t : Store}

/-- The values of a store are of their types, whatever its classes are. -/
structure Typed (s : Store) : Prop where
  initial : s.initial.Typed
  held : ∀ values pattern, s.condition = .ready values pattern → values.Typed

theorem Typed.same_refl (typed : s.Typed) {values : OptionValues} {pattern : Pattern}
    (ready : s.condition = .ready values pattern) (o : OptionName) :
    (values.get o).same (values.get o) = true := by
  obtain ⟨⟨wrap, isWrap⟩, ⟨lineBreak, isLineBreak⟩, ⟨breakAt, isBreakAt⟩⟩ :=
    typed.held values pattern ready
  cases o with
  | wrap => simp [OptionValues.get, isWrap]
  | lineBreak => simp [OptionValues.get, isLineBreak]
  | breakAt => simp [OptionValues.get, isBreakAt]

theorem typed_of_create {window : WindowOptions} {shared : SharedOptions} {classes : Entries}
    (e : create (.ofOptions window shared) classes = .ok s) : s.Typed := by
  rw [create_eq_ok e]
  exact ⟨OptionValues.typed_ofOptions window shared, by rintro values pattern ⟨⟩⟩

theorem typed_set {values : OptionValues} (typed : values.Typed) {option value : Value}
    {name : OptionName} (named : OptionName.ofValue option = .ok name)
    (admitted : s.admits option value = .ok true) : (values.set value name).Typed := by
  obtain ⟨rfl, isText, -⟩ | ⟨other, isBool⟩ := admits_cases named admitted
  · cases value with
    | text selected => exact ⟨typed.wrap, typed.lineBreak, selected, rfl⟩
    | _ => cases isText
  · cases value with
    | bool b =>
      cases name with
      | wrap => exact ⟨⟨b, rfl⟩, typed.lineBreak, typed.breakAt⟩
      | lineBreak => exact ⟨typed.wrap, ⟨b, rfl⟩, typed.breakAt⟩
      | breakAt => exact absurd rfl other
    | _ => cases isBool

theorem Step.typed {write : Option Change} (step : s.Step write t) (typed : s.Typed) : t.Typed := by
  cases step with
  | start e =>
    obtain ⟨-, rfl⟩ | ⟨-, chars, pattern, -, -, rfl⟩ := start_cases e
    · exact typed
    · refine ⟨typed.initial, ?_⟩
      rintro values pattern ⟨⟩
      exact typed.initial
  | close =>
    unfold Store.close
    split
    · exact typed
    · exact ⟨typed.initial, by rintro values pattern ⟨⟩⟩
  | write e =>
    obtain ⟨values, pattern, name, pattern', ready, named, admitted, -, rfl, -⟩ := write_cases e
    refine ⟨typed.initial, ?_⟩
    rintro values' _ ⟨⟩
    exact typed_set (typed.held values pattern ready) named admitted
  | register id => exact ⟨typed.initial, typed.held⟩
  | unregister e =>
    obtain rfl := unregister_eq_ok e
    exact ⟨typed.initial, typed.held⟩

/-- A write makes a change that says what the option was and is, and leaves all else alone. -/
structure Commits (s : Store) (c : Change) (t : Store) : Prop where
  exact : ∃ values pattern pattern', s.condition = .ready values pattern ∧
    c.old = values.get c.option ∧
    t = { s with condition := .ready (values.set c.new c.option) pattern' }
  real : c.isReal = true ↔ c.new ≠ c.old

theorem Step.commits {c : Change} (step : s.Step (some c) t) (typed : s.Typed) :
    s.Commits c t := by
  cases step with
  | @write _ option value _ e =>
    have unreal := write_unreal typed.held e
    obtain ⟨values, pattern, name, pattern', ready, -, -, rfl, rfl, -⟩ := write_cases e
    refine ⟨⟨values, pattern, pattern', ready, rfl, rfl⟩, ?_, ?_⟩
    · intro real same
      obtain rfl : value = values.get name := same
      simp [Change.isReal, typed.same_refl ready] at real
    · intro differs
      exact Bool.of_not_eq_false fun none => differs (unreal none)

end Store

/-! ## Every state in the journal -/

/-- Every state in a journal comes from the one before it by the write that it is noted with. -/
def Ledger (store : Store) (es : List Entry) : Prop :=
  ∀ i t write, es[i]? = some (.stored t write) → (store.afterEntries (es.take i)).Step write t

theorem Ledger.concat {store : Store} {es : List Entry} {e : Entry} (ledger : Ledger store es)
    (step : ∀ t write, e = .stored t write → (store.afterEntries es).Step write t) :
    Ledger store (es ++ [e]) := by
  intro i t write found
  rcases Nat.lt_or_ge i es.length with within | beyond
  · rw [List.getElem?_append_left within] at found
    rw [List.take_append_of_le_length (Nat.le_of_lt within)]
    exact ledger i t write found
  · obtain ⟨k, rfl⟩ := Nat.exists_eq_add_of_le beyond
    rw [List.getElem?_append_right (by omega), Nat.add_sub_cancel_left] at found
    obtain ⟨last, same⟩ := List.getElem?_eq_some_iff.mp found
    obtain rfl : k = 0 := Nat.lt_one_iff.mp last
    rw [Nat.add_zero, List.take_left]
    exact step t write same

theorem Host.Path.ledger {store : Store} {h : Host} (path : (Host.ofStore store).Path h) :
    Ledger store h.journal.reverse := by
  induction path with
  | refl => rintro i t write ⟨⟩
  | @tail h h' path move ih =>
    have current : store.afterEntries h.journal.reverse = h.store :=
      (Host.Path.accounts path (Host.accounts_ofStore store)).current
    have noted {e : Entry} (plain : e.store? = none) : Ledger store (e :: h.journal).reverse := by
      rw [List.reverse_cons]
      refine ih.concat ?_
      rintro t write rfl
      cases plain
    cases move with
    | noted e plain => exact noted (Entry.store?_of_isPlain plain)
    | accessed id a outcome opened => exact noted rfl
    | @stored t write step =>
      change Ledger store (.stored t write :: h.journal).reverse
      rw [List.reverse_cons]
      refine ih.concat ?_
      rintro t write ⟨⟩
      rwa [current]
    | _ => exact ih

theorem Host.Path.typed {store : Store} {h : Host} (path : (Host.ofStore store).Path h)
    (typed : store.Typed) : ∀ s ∈ store :: h.history, s.Typed := by
  have accounts := path.accounts (Host.accounts_ofStore store)
  exact accounts.chain.induction _ _ (fun _ _ ⟨_, step⟩ => step.typed) fun _ => typed

/-! ## Single writes -/

/-- The second host comes from the first one by a write that the store took. If the write succeeds,
its round was called in full. If it fails, its round broke off, at a listener whose failure has no
text. -/
def Host.Concludes (respond : Response) (t : Store) (c : Change) (out : Except Raised Unit)
    (h h' : Host) : Prop :=
  ∃ es owner calls cuts, h'.since h = .stored t (some c) :: es ∧ Assigned calls cuts es owner ∧
    Heard (t.round c) calls cuts ∧
      (out = .ok () ∧ cuts = [] ∨
        out = .error Fault.unwritable ∧ BrokeOff respond c h' ∧ cuts ≠ [])

namespace Act

variable {respond : Response} {c : Change} {id : ListenerId} {ids : List ListenerId}
  {h h₁ h' : Host}

theorem say_tells (r : Record) (h : Host) :
    h.Tells { h with journal := sayEntries h r ++ h.journal } :=
  Along.say r (say_apply r h)

theorem tell_tells (hr : respond.Along Host.Tells)
    (told : tell respond c id h = some (.ok (), h₁)) :
    Host.Tells { h with journal := .notified id c :: h.journal } h₁ := by
  cases tell_told told with
  | returned heard => exact hr id c heard
  | failed heard said => exact (hr id c heard).trans (say_tells _ _)

theorem forM_tell_concludes (hr : respond.Along Host.Tells) {out : Except Raised Unit}
    (e : ids.forM (tell respond c) h = some (out, h')) :
    ∃ es owner calls cuts, h'.journal = es.reverse ++ h.journal ∧ Assigned calls cuts es owner ∧
      Heard (ids.map fun id => (id, c)) calls cuts ∧
        (out = .ok () ∧ cuts = [] ∨
          out = .error Fault.unwritable ∧ BrokeOff respond c h' ∧ cuts ≠ []) := by
  induction ids generalizing h with
  | nil =>
    cases e
    exact ⟨[], _, [], [], rfl, .nil, .full [], .inl ⟨rfl, rfl⟩⟩
  | cons id ids ih =>
    change (tell respond c id >>= fun _ => ids.forM (tell respond c)) h = _ at e
    obtain ⟨r, broken, rfl⟩ | ⟨_, h₁, told, e⟩ := bind_eq_some e
    · cases tell_told broken with
      | @cut h₁ _ heard unsaid =>
        obtain ⟨during, grown, story⟩ := hr id c heard
        obtain ⟨first, assigned⟩ := story.closed
        obtain ⟨owner, whole⟩ := assigned.broke Assigned.nil
        refine ⟨_, owner, _, _, ?_, whole, .broken _ _, .inr ⟨rfl, ?_, List.cons_ne_nil _ _⟩⟩
        · rw [grown]
          simp
        · exact ⟨id, _, h₁, _, heard, unsaid, rfl⟩
    · obtain ⟨during, grown, story⟩ := tell_tells hr told
      obtain ⟨first, assigned⟩ := story.closed
      obtain ⟨es, second, calls, cuts, further, later, heard, ended⟩ := ih e
      obtain ⟨owner, whole⟩ := assigned.told later
      refine ⟨_, owner, _, _, ?_, whole, heard.cons _, ended⟩
      rw [further, grown]
      simp

/-- A write that the store takes calls its round, in full or up to where it breaks off. -/
theorem setOption_concludes (hr : respond.Along Host.Tells) {option value : Value} {t : Store}
    {out : Except Raised Unit} (written : h.store.write option value = .ok (c, t))
    (e : setOption respond option value h = some (out, h')) : h.Concludes respond t c out h' := by
  unfold setOption at e
  rw [ask_pure_bind_apply, written, ofExcept_ok, pure_bind_apply] at e
  dsimp only at e
  rw [bind_of_ok (setStore_apply t _ h), bind_of_ok (say_apply _ _)] at e
  obtain ⟨noted, grown, story⟩ := say_tells (changeRecord c)
    { h with store := t, journal := .stored t (some c) :: h.journal }
  obtain ⟨first, before⟩ := story.closed
  have round : t.round c = (h.store.audience c).map fun id => (id, c) := by
    rw [Store.round, Host.Tells.audience_eq written]
  obtain ⟨es, second, calls, cuts, further, assigned, heard, ended⟩ :
      ∃ es owner calls cuts, h'.journal = es.reverse ++ (noted.reverse ++
          .stored t (some c) :: h.journal) ∧ Assigned calls cuts es owner ∧
        Heard (t.round c) calls cuts ∧
          (out = .ok () ∧ cuts = [] ∨
            out = .error Fault.unwritable ∧ BrokeOff respond c h' ∧ cuts ≠ []) := by
    rw [round, Store.audience, ← grown]
    split at e
    · rw [if_pos ‹_›]
      exact forM_tell_concludes hr e
    · rw [if_neg ‹_›]
      cases e
      exact ⟨[], _, [], [], rfl, .nil, .full [], .inl ⟨rfl, rfl⟩⟩
  refine ⟨noted ++ es, _, calls, cuts, Host.since_eq ?_, before.append assigned, heard, ended⟩
  rw [further]
  simp

end Act

/-! ## Writes that fail -/

/-- What was written to the journal from one host to the other is about no state and no call. -/
def Host.Unheard (h h' : Host) : Prop :=
  ∃ es, h'.journal = es ++ h.journal ∧ ∀ e ∈ es, e.isAside

theorem Host.Unheard.refl (h : Host) : h.Unheard h := ⟨[], rfl, by rintro _ ⟨⟩⟩

theorem Host.Untouched.unheard {h h' : Host} (untouched : h.Untouched h') : h.Unheard h' := by
  obtain ⟨records, rfl⟩ := untouched
  refine ⟨records.map .logged, rfl, ?_⟩
  intro e member
  obtain ⟨record, -, rfl⟩ := List.mem_map.mp member
  exact ⟨rfl, rfl, rfl⟩

theorem Host.Unheard.accessed {h h₁ : Host} (unheard : h.Unheard h₁) (run : Nat) (a : Accessor)
    (outcome : Outcome) (evaluations : List Evaluation) :
    h.Unheard { h₁ with
      evaluations := evaluations, journal := .accessed run a outcome :: h₁.journal } := by
  obtain ⟨es, grown, asides⟩ := unheard
  refine ⟨.accessed run a outcome :: es, by rw [grown]; rfl, ?_⟩
  intro e member
  rcases List.mem_cons.mp member with rfl | earlier
  · exact ⟨rfl, rfl, rfl⟩
  · exact asides e earlier

/-- A call that fails calls nobody, unless it botches a write. -/
def Host.FailsUnheard (respond : Response) (h h' : Host) : Prop :=
  h.Unheard h' ∨ ∃ h₁, h.Botched respond h₁ ∧ h₁.Unheard h'

namespace Act

variable {respond : Response} {h h' : Host} {r : Raised} {a : Accessor} {args : List Value}
  {kwargs : Entries}

theorem access_failsUnheard {bridge : Nat}
    (e : access respond bridge a args kwargs h = some (.error r, h')) :
    h.FailsUnheard respond h' := by
  rcases access_cautious bridge a args kwargs e with untouched | botched
  · exact .inl untouched.unheard
  · exact .inr ⟨h', botched, .refl h'⟩

theorem accessWithin_failsUnheard {run : Nat}
    (e : accessWithin respond run a args kwargs h = some (.error r, h')) :
    h.FailsUnheard respond h' := by
  obtain ⟨-, -, rfl⟩ | ⟨bridge, runs⟩ := runs_of_accessWithin e
  · exact .inl (.refl h')
  · obtain ⟨h₁, accessed, rfl⟩ := accessWithin_cases runs e
    obtain unheard | ⟨h₂, botched, unheard⟩ := access_failsUnheard accessed
    · exact .inl (unheard.accessed run a _ _)
    · exact .inr ⟨h₂, botched, unheard.accessed run a _ _⟩

end Act

/-! ## Exactly once -/

/-- The calls of a journal are the rounds of its writes. -/
structure Rounds (store : Store) (es : List Entry) (owner : Nat → Option Nat) : Prop where
  /-- A call belongs to one write before it, of which it tells, and so does the place where a
  telling broke off. -/
  called : ∀ j e id c, es[j]? = some e → e.mark? = some (id, c) →
    ∃ i t, owner j = some i ∧ i < j ∧ es[i]? = some (.stored t (some c))
  /-- What a write says of its option is so in the store just before and just after. -/
  written : ∀ i t c, es[i]? = some (.stored t (some c)) →
    (store.afterEntries (es.take i)).Commits c t
  /-- The calls of a write that changes its option are those of all registrations, in order, if its
  telling did not break off, and else those up to where it did. -/
  changed : ∀ i t c, es[i]? = some (.stored t (some c)) → c.new ≠ c.old →
    Heard (t.listeners.map fun id => (id, c)) (callsOf owner (some i) es) (cutsOf owner (some i) es)
  unchanged : ∀ i t c, es[i]? = some (.stored t (some c)) → c.new = c.old →
    callsOf owner (some i) es = [] ∧ cutsOf owner (some i) es = []

theorem Assigned.called {es : List Entry} {owner : Nat → Option Nat}
    (assigned : Assigned [] [] es owner) {j : Nat} {e : Entry} {id : ListenerId} {c : Change}
    (found : es[j]? = some e) (marked : e.mark? = some (id, c)) :
    ∃ i t, owner j = some i ∧ i < j ∧ es[i]? = some (.stored t (some c)) := by
  cases owned : owner j with
  | some i =>
    obtain ⟨before, t, wrote⟩ := assigned.made i j e (id, c) found marked owned
    exact ⟨i, t, rfl, before, wrote⟩
  | none =>
    have member := mem_callsOf_or_cutsOf found marked owned
    rw [assigned.calls, assigned.cuts] at member
    simp at member

theorem Host.Path.rounds {store : Store} {h : Host} {owner : Nat → Option Nat}
    (path : (Host.ofStore store).Path h) (typed : store.Typed)
    (assigned : Assigned [] [] h.journal.reverse owner) :
    Rounds store h.journal.reverse owner := by
  have written : ∀ i t c, h.journal.reverse[i]? = some (.stored t (some c)) →
      (store.afterEntries (h.journal.reverse.take i)).Commits c t := by
    intro i t c found
    obtain ⟨within, same⟩ := List.getElem?_eq_some_iff.mp found
    have split : h.journal.reverse = h.journal.reverse.take i ++
        .stored t (some c) :: h.journal.reverse.drop (i + 1) := by
      rw [← same, List.getElem_cons_drop, List.take_append_drop]
    exact (path.ledger i t _ found).commits (path.typed typed _ (Host.sighting_mem split))
  refine ⟨fun j e id c found marked => assigned.called found marked, written, ?_, ?_⟩
  · intro i t c found differs
    have real := (written i t c found).real.mpr differs
    have round := assigned.rounds i t c found
    rwa [Store.round, Store.audience, if_pos real] at round
  · intro i t c found same
    have unreal := mt (written i t c found).real.mp (not_not_intro same)
    have round := assigned.rounds i t c found
    rw [Store.round, Store.audience, if_neg unreal, List.map_nil] at round
    exact round.of_nil

namespace Session

/-- A listener that drops another one, brings in a third, closes the store and fails. -/
def wrecking (_ : Change) : Reaction Request :=
  .does (.unregister "second") fun _ =>
    .does (.register "third" fun _ => .returns) fun _ =>
      .does .close fun _ => .raises ⟨.foreign "RuntimeError" "wrecked", none⟩

/-- One party is registered twice, behind the one that wrecks everything. -/
def wrecked : List Request :=
  [.start, .register "first" wrecking, .register "second" fun _ => .returns,
    .register "second" fun _ => .returns, .set (.text "wrap") (.bool false)]

theorem cutsOf_eq_nil {owner : Nat → Option Nat} {place : Option Nat} {es : List Entry}
    (whole : es.filterMap Entry.cut? = []) : cutsOf owner place es = [] := by
  refine marksOf_eq_nil fun j e p found cut => ?_
  rw [List.filterMap_eq_nil_iff.mp whole e (List.mem_of_getElem? found)] at cut
  cases cut

end Session

end OptionHost
