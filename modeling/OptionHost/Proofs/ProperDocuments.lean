import OptionHost.Proofs.DistinctKeys
import OptionHost.Proofs.Outcome

/-!
# Mappings of documents

A mapping is written entry by entry, and a key that comes again replaces what it had. So whatever
value a document stands for, its mappings have different keys, and so have the layers of files.
-/

namespace OptionHost

namespace Entries

open Value (Proper)

variable {entries : Entries} {key value : Value}

theorem proper_put (proper : (Value.dict entries).Proper) (fits : value.Proper) :
    (Value.dict (entries.put key value)).Proper := by
  refine .dict proper.differ.put fun e mem => ?_
  rcases mem_put mem with there | ⟨rfl, -⟩
  · exact proper.value there
  · exact fits

theorem proper_ofPairs {pairs : List (Value × Value)} (fits : ∀ e ∈ pairs, e.2.Proper) :
    (Value.dict (ofPairs pairs)).Proper := by
  have written : ofPairs pairs = pairs.foldl (fun entries e => put e.1 e.2 entries) [] := rfl
  rw [written]
  suffices grown : ∀ entries : Entries, (Value.dict entries).Proper →
      (Value.dict (pairs.foldl (fun entries e => put e.1 e.2 entries) entries)).Proper from
    grown [] (.dict .nil (by simp))
  clear written
  induction pairs with
  | nil => exact fun _ proper => proper
  | cons e rest ih =>
    intro entries proper
    exact ih (fun f mem => fits f (by simp [mem])) _ (proper_put proper (fits e (by simp)))

end Entries

namespace Yaml

theorem Staged.both_ok {α β : Type} {a : Staged α} {b : Staged β} {p : α × β}
    (ok : a.both b = .ok p) : a = .ok p.1 ∧ b = .ok p.2 := by
  cases a <;> cases b <;> cases ok
  exact ⟨rfl, rfl⟩

theorem Staged.mem_of_all {α : Type} {parts : List (Staged α)} {values : List α}
    (ok : Staged.all parts = .ok values) : ∀ v ∈ values, .ok v ∈ parts := by
  induction parts generalizing values with
  | nil =>
    cases ok
    simp
  | cons part rest ih =>
    obtain ⟨p, pair, rfl⟩ := Except.map_eq_ok ok
    obtain ⟨first, later⟩ := both_ok pair
    intro v mem
    rcases List.mem_cons.mp mem with rfl | mem
    · exact first ▸ List.mem_cons_self
    · exact List.mem_cons_of_mem _ (ih later v mem)

/-! ## Scalars -/

theorem Stamp.toValue_plain {s : Stamp} {v : Value} (ok : s.toValue = .ok v) :
    v.isDict = false := by
  rw [Stamp.toValue] at ok
  cases clock : s.clock with
  | none =>
    rw [clock] at ok
    obtain ⟨_, _, rest⟩ := Except.bind_eq_ok ok
    cases rest
    rfl
  | some c =>
    rw [clock] at ok
    obtain ⟨_, _, rest⟩ := Except.bind_eq_ok ok
    obtain ⟨_, _, rest⟩ := Except.bind_eq_ok rest
    obtain ⟨_, _, rest⟩ := Except.bind_eq_ok rest
    cases rest
    rfl

theorem Scalar.ofFault_ok {α : Type} {e : Except Fault α} {a : α} (ok : ofFault e = .ok a) :
    e = .ok a := by
  cases e <;> cases ok
  rfl

theorem Scalar.read_plain {tag : Tag} {text : String} {v : Value} (ok : read tag text = .ok v) :
    v.isDict = false := by
  cases tag with
  | null | str => cases ok; rfl
  | bool | int | float =>
    obtain ⟨_, _, rfl⟩ := Except.map_eq_ok (ofFault_ok ok)
    rfl
  | binary =>
    obtain ⟨_, _, rfl⟩ := Except.map_eq_ok ok
    rfl
  | timestamp =>
    have stamped := ofFault_ok ok
    rw [readTimestamp] at stamped
    split at stamped
    · exact Stamp.toValue_plain stamped
    · cases stamped
  | _ => cases ok

/-! ## Nodes -/

/-- Whatever the value of a member is read as has different keys. -/
def Member.Fits (m : Member) : Prop := ∀ v, m.value = .ok v → v.Proper

theorem Member.entries_proper {members : List Member} {entries : Entries}
    (fits : ∀ m ∈ members, m.Fits) (ok : Member.entries members = .ok entries) :
    (Value.dict entries).Proper := by
  obtain ⟨pairs, all, rfl⟩ := Except.map_eq_ok ok
  refine Entries.proper_ofPairs fun e mem => ?_
  obtain ⟨m, member, read⟩ := List.mem_map.mp (Staged.mem_of_all all e mem)
  exact fits m member e.2 (Staged.both_ok read).2

theorem Member.tuples_plain {members : List Member} {v : Value}
    (ok : Member.tuples members = .ok v) : v.isDict = false := by
  obtain ⟨_, _, rfl⟩ := Except.map_eq_ok ok
  rfl

namespace Node

theorem readAsScalar_plain {n : Node} {v : Value} (ok : readAsScalar n = .ok v) :
    v.isDict = false := by
  rw [readAsScalar] at ok
  split at ok
  · cases ok
  · cases ok
  · exact Scalar.read_plain (Except.mapError_eq_ok.mp ok)
  · cases ok

theorem read_sequence_plain {tag : Tag} {items : List Node} {v : Value}
    (ok : (Node.sequence tag items).read = .ok v) : v.isDict = false := by
  cases tag with
  | seq =>
    rw [read] at ok
    obtain ⟨_, _, rfl⟩ := Except.map_eq_ok (Except.mapError_eq_ok.mp ok)
    rfl
  | omap | pairs =>
    rw [read] at ok
    have listed := Except.mapError_eq_ok.mp ok
    split at listed
    · exact Member.tuples_plain listed
    · obtain ⟨_, both, rfl⟩ := Except.map_eq_ok listed
      cases (Staged.both_ok both).2
  | _ => cases ok

mutual

/-- The mappings that a node stands for have different keys. -/
theorem read_proper (n : Node) {v : Value} (ok : n.read = .ok v) : v.Proper := by
  cases n with
  | scalar tag text =>
    rw [read] at ok
    split at ok
    · cases ok
    · exact .plain (Scalar.read_plain (Except.mapError_eq_ok.mp ok))
  | sequence tag items => exact .plain (read_sequence_plain ok)
  | mapping tag pairs =>
    cases tag with
    | map =>
      rw [read] at ok
      have written := Except.mapError_eq_ok.mp ok
      split at written
      next merged own members =>
        obtain ⟨entries, bound, rfl⟩ := Except.map_eq_ok written
        exact Member.entries_proper (readPairs_fits pairs members) bound
      next => cases written
    | set =>
      rw [read] at ok
      have written := Except.mapError_eq_ok.mp ok
      split at written
      · obtain ⟨_, _, rfl⟩ := Except.map_eq_ok written
        exact .plain rfl
      · cases written
    | seq | omap | pairs => cases ok
    | _ =>
      rw [read] at ok
      · exact .plain (readAsScalar_plain ok)
      all_goals nofun
  | cycle isMapping =>
    cases ok
    exact .plain rfl
termination_by structural n

theorem readPairs_fits (pairs : List (Node × Node)) {merged own : List Member}
    (ok : readPairs pairs = some (merged, own)) : ∀ m ∈ merged ++ own, m.Fits := by
  cases pairs with
  | nil =>
    cases ok
    simp
  | cons p rest =>
    rw [readPairs] at ok
    split at ok
    next => cases ok
    next merged₁ own₁ entry =>
      split at ok
      next => cases ok
      next merged₂ own₂ others =>
        cases ok
        have first := readEntry_fits p entry
        have later := readPairs_fits rest others
        intro m mem
        simp only [List.mem_append] at mem first later
        rcases mem with (h | h) | h | h
        · exact first m (.inl h)
        · exact later m (.inl h)
        · exact first m (.inr h)
        · exact later m (.inr h)
termination_by structural pairs

theorem readEntry_fits (p : Node × Node) {merged own : List Member}
    (ok : readEntry p = some (merged, own)) : ∀ m ∈ merged ++ own, m.Fits := by
  obtain ⟨k, v⟩ := p
  have single (key : Staged Value) : ∀ m ∈ [] ++ [Member.mk key v.read], m.Fits := by
    intro m mem
    obtain rfl : m = ⟨key, v.read⟩ := by simpa using mem
    exact fun _ value => read_proper v value
  rw [readEntry] at ok
  split at ok
  · split at ok
    next members found =>
      cases ok
      intro m mem
      exact readMerged_fits v found m (by simpa using mem)
    next => cases ok
  · split at ok
    · cases ok
      exact single _
    · cases ok
      exact single _
  · cases ok
    exact single _
termination_by structural p

theorem readMerged_fits (n : Node) {members : List Member} (ok : readMerged n = some members) :
    ∀ m ∈ members, m.Fits := by
  cases n with
  | scalar tag text => cases ok
  | sequence tag items => exact readMergedItems_fits items ok
  | mapping tag pairs =>
    rw [readMerged] at ok
    split at ok
    next merged own found =>
      cases ok
      exact readPairs_fits pairs found
    next => cases ok
  | cycle isMapping =>
    cases isMapping <;> cases ok
    simp
termination_by structural n

theorem readMergedItems_fits (items : List Node) {members : List Member}
    (ok : readMergedItems items = some members) : ∀ m ∈ members, m.Fits := by
  cases items with
  | nil =>
    cases ok
    simp
  | cons n rest =>
    rw [readMergedItems] at ok
    split at ok
    next first later found others =>
      cases ok
      intro m mem
      rcases List.mem_append.mp mem with h | h
      · exact readMergedItems_fits rest others m h
      · exact readMergedItem_fits n found m h
    next => cases ok
termination_by structural items

theorem readMergedItem_fits (n : Node) {members : List Member}
    (ok : readMergedItem n = some members) : ∀ m ∈ members, m.Fits := by
  cases n with
  | scalar tag text => cases ok
  | sequence tag items => cases ok
  | mapping tag pairs =>
    rw [readMergedItem] at ok
    split at ok
    next merged own found =>
      cases ok
      exact readPairs_fits pairs found
    next => cases ok
  | cycle isMapping =>
    cases isMapping <;> cases ok
    simp
termination_by structural n

end

end Node

theorem readDocument_proper {text : List Char} {v : Value} (ok : readDocument text = .ok v) :
    v.Proper := by
  rw [readDocument] at ok
  split at ok
  · split at ok
    · cases ok
    · cases ok
      exact .plain rfl
    · exact Node.read_proper _ (Except.mapError_eq_ok.mp ok)
  · cases ok

end Yaml

namespace Layer

/-- The documents of files that are told by their value are values that a file can have. -/
def Told (files : Files) : Prop :=
  ∀ path content, files.get? path = some (.document content) → content.Proper

theorem ofDocument_proper {path : String} {content : Value} {entries : Entries}
    (proper : content.Proper) (ok : (ofDocument path content).outcome = .ok entries) :
    (Value.dict entries).Proper := by
  cases content with
  | dict written =>
    cases ok
    exact proper
  | _ =>
    cases ok
    exact .dict .nil (by simp)

/-- The layer of a file has different keys, and so have its sections. -/
theorem load_proper {files : Files} {path : String} {entries : Entries} (told : Told files)
    (ok : (load files path).outcome = .ok entries) : (Value.dict entries).Proper := by
  rw [load] at ok
  split at ok
  · cases ok
    exact .dict .nil (by simp)
  · cases ok
  next content found => exact ofDocument_proper (told path content found) ok
  next content found =>
    rw [Report.outcome_bind] at ok
    obtain ⟨text, _, ok⟩ := Except.bind_eq_ok ok
    split at ok
    · cases ok
      exact .dict .nil (by simp)
    · cases ok
    next v read => exact ofDocument_proper (Yaml.readDocument_proper read) ok

end Layer

end OptionHost
