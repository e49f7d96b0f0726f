import OptionHost.Engine.Monty
import OptionHost.Engine.Starlark
import OptionHost.Runner

/-!
# Where the names of accessors lead

Each engine makes a table of its own from the names of a job. A job gives nothing under a reserved
name, so in either table the name of an accessor stands for the accessor of the evaluation.
-/

namespace OptionHost

namespace Table

/-- The table has entries under a name, and all of them bind it alike. -/
structure Binds (t : Table) (name : String) (b : Binding) : Prop where
  named : name ∈ t.names
  alike : ∀ e ∈ t, e.1 = name → e.2 = b

theorem mem_put {name : String} {b : Binding} {t : Table} {e : String × Binding}
    (member : e ∈ put name b t) : e ∈ t ∨ e = (name, b) := by
  induction t with
  | nil => exact .inr (List.mem_singleton.mp member)
  | cons head rest ih =>
    unfold put at member
    split at member
    · rename_i same
      rcases List.mem_cons.mp member with new | old
      · rw [new, beq_iff_eq.mp same]
        exact .inr rfl
      · exact .inl (List.mem_cons_of_mem _ old)
    · rcases List.mem_cons.mp member with first | later
      · exact .inl (first ▸ List.mem_cons_self)
      · rcases ih later with old | new
        · exact .inl (List.mem_cons_of_mem _ old)
        · exact .inr new

theorem mem_update {t other : Table} {e : String × Binding} (member : e ∈ t.update other) :
    e ∈ t ∨ e ∈ other := by
  unfold update at member
  induction other generalizing t with
  | nil => exact .inl member
  | cons head rest ih =>
    rcases ih member with earlier | later
    · rcases mem_put earlier with old | new
      · exact .inl old
      · rw [new]
        exact .inr List.mem_cons_self
    · exact .inr (List.mem_cons_of_mem _ later)

theorem lookup_update_of_absent {t other : Table} {name : String} (absent : name ∉ other.names) :
    (t.update other).lookup name = t.lookup name := by
  unfold update
  induction other generalizing t with
  | nil => rfl
  | cons head rest ih =>
    have different : (name == head.1) = false := by
      rw [beq_eq_false_iff_ne]
      intro same
      exact absent (same ▸ List.mem_cons_self)
    rw [List.foldl_cons, ih fun later => absent (List.mem_cons_of_mem _ later), lookup_put,
      different]
    rfl

theorem Binds.lookup_update {t other : Table} {name : String} {b : Binding}
    (binds : other.Binds name b) : (t.update other).lookup name = some b := by
  obtain ⟨named, alike⟩ := binds
  unfold update
  induction other generalizing t with
  | nil => cases named
  | cons head rest ih =>
    rw [List.foldl_cons]
    by_cases later : name ∈ Table.names rest
    · exact ih later fun e member => alike e (List.mem_cons_of_mem _ member)
    · have first : head.1 = name := by
        rcases List.mem_cons.mp named with first | other
        · exact first.symm
        · exact absurd other later
      have kept : (Table.update (put head.1 head.2 t) rest).lookup name = _ :=
        lookup_update_of_absent later
      refine kept.trans ?_
      rw [lookup_put, first, beq_self_eq_true, alike head List.mem_cons_self first]
      rfl

theorem names_mem_of_lookup {t : Table} {name : String} {b : Binding}
    (found : t.lookup name = some b) : name ∈ t.names := by
  obtain ⟨before, after, split, _⟩ := List.lookup_eq_some_iff.mp found
  rw [split, names, List.map_append]
  exact List.mem_append_right _ List.mem_cons_self

/-- Keeping only functions keeps the binding of a name to a function. -/
theorem Binds.filter {t : Table} {name : String} {b : Binding} (binds : t.Binds name b)
    (function : b.isFunction = true) : Table.Binds (Monty.functions t) name b := by
  refine ⟨?_, fun e member => binds.alike e (List.mem_filter.mp member).1⟩
  obtain ⟨e, member, named⟩ := List.mem_map.mp binds.named
  refine List.mem_map.mpr ⟨e, List.mem_filter.mpr ⟨member, ?_⟩, named⟩
  rw [binds.alike e member named]
  exact function

end Table

namespace Accessor

theorem name_injective {a c : Accessor} (same : a.name = c.name) : a = c := by
  have found := ofName?_name a
  rw [same, ofName?_name c] at found
  exact (Option.some.inj found).symm

theorem mem_all (a : Accessor) : a ∈ all := List.mem_of_find?_eq_some (ofName?_name a)

theorem name_mem_reservedNames (a : Accessor) : a.name ∈ reservedNames :=
  List.mem_cons_of_mem _ (List.mem_map.mpr ⟨a, a.mem_all, rfl⟩)

end Accessor

theorem accessorTable_binds (run : Nat) (a : Accessor) :
    Table.Binds (accessorTable run) a.name (.function (.accessor run a) false) := by
  constructor
  · refine List.mem_map.mpr ⟨_, List.mem_map.mpr ⟨a, a.mem_all, rfl⟩, rfl⟩
  · intro e member named
    obtain ⟨c, _, rfl⟩ := List.mem_map.mp member
    rw [Accessor.name_injective named]

namespace Runner

variable {job : Job}

theorem names_binds (clear : ∀ name ∈ reservedNames, name ∉ (job.globals.getD []).names)
    (run : Nat) (a : Accessor) :
    (names job run).Binds a.name (.function (.accessor run a) false) := by
  have table := accessorTable_binds run a
  refine ⟨Table.names_mem_of_lookup table.lookup_update, ?_⟩
  intro e member named
  rcases Table.mem_update member with given | own
  · exact absurd (List.mem_map.mpr ⟨e, given, named⟩) (clear _ a.name_mem_reservedNames)
  · exact table.alike e own named

theorem starlark_lookup (clear : ∀ name ∈ reservedNames, name ∉ (job.globals.getD []).names)
    (config : RunnerConfig) (run : Nat) (a : Accessor) :
    (Starlark.names config (names job run)).lookup a.name =
      some (.function (.accessor run a) false) := by
  have found : (Starlark.helpers.update (names job run)).lookup a.name = _ :=
    (names_binds clear run a).lookup_update
  unfold Starlark.names
  dsimp only
  split
  · have different : (a.name == "print") = false := by
      cases a with
      | getter o => cases o <;> rfl
      | setter o => cases o <;> rfl
    rw [Table.lookup_put, different]
    exact found
  · exact found

theorem monty_lookup (clear : ∀ name ∈ reservedNames, name ∉ (job.globals.getD []).names)
    (run : Nat) (a : Accessor) :
    (Monty.implementations (names job run)).lookup a.name =
      some (.function (.accessor run a) false) := by
  have absent : a.name ∉ Table.names Monty.helpers := by
    cases a with
    | getter o => cases o <;> decide
    | setter o => cases o <;> decide
  unfold Monty.implementations
  rw [Table.lookup_update_of_absent absent]
  exact ((names_binds clear run a).filter rfl).lookup_update

end Runner

end OptionHost
