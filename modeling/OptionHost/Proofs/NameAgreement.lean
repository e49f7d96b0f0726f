import Mathlib.Data.List.Nodup
import OptionHost.Proofs.NameTable

/-!
# What names mean to either engine

Both engines add helpers of their own to the names of a job. The one puts the names of the job over
its helpers, the other one its helpers over the names of the job; and where a helper takes the place
of a value, the value stays an input beside it. So the engines differ about a name just where a job
gives something else under the name of a helper.
-/

namespace OptionHost

namespace Table

variable {t other : Table} {name : String} {b : Binding}

theorem names_put (name : String) (b : Binding) (t : Table) :
    (put name b t).names = if name ∈ t.names then t.names else t.names ++ [name] := by
  induction t with
  | nil => rfl
  | cons e rest ih =>
    obtain ⟨n, old⟩ := e
    by_cases same : n = name
    · simp [put, names, same]
    · have whole : put name b ((n, old) :: rest) = (n, old) :: put name b rest :=
        if_neg fun equal => same (beq_iff_eq.mp equal)
      have elsewhere : name ∈ names ((n, old) :: rest) ↔ name ∈ names rest :=
        List.mem_cons.trans (or_iff_right (Ne.symm same))
      rw [whole, names, List.map_cons, ← names, ih]
      simp only [elsewhere]
      split <;> rfl

theorem mem_names_put {key : String} : key ∈ (put name b t).names ↔ key = name ∨ key ∈ t.names := by
  rw [names_put]
  split
  · exact (or_iff_right_of_imp fun same => same ▸ ‹_›).symm
  · rw [List.mem_append, List.mem_singleton, or_comm]

theorem nodup_put (distinct : t.names.Nodup) : (put name b t).names.Nodup := by
  rw [names_put]
  split
  · exact distinct
  · exact List.nodup_append.mpr ⟨distinct, List.nodup_singleton name, by
      rintro key member _ last rfl
      exact absurd (List.mem_singleton.mp last ▸ member) ‹_›⟩

theorem mem_names_update {key : String} :
    key ∈ (t.update other).names ↔ key ∈ t.names ∨ key ∈ other.names := by
  unfold update
  induction other generalizing t with
  | nil => exact (or_iff_left (List.not_mem_nil)).symm
  | cons e rest ih =>
    rw [List.foldl_cons, ih, mem_names_put, or_comm (a := key = e.1), or_assoc]
    exact or_congr_right List.mem_cons.symm

theorem nodup_update (distinct : t.names.Nodup) : (t.update other).names.Nodup := by
  unfold update
  induction other generalizing t with
  | nil => exact distinct
  | cons e rest ih => exact ih (nodup_put distinct)

theorem nodup_filter (distinct : t.names.Nodup) (p : String × Binding → Bool) :
    (names (t.filter p)).Nodup :=
  distinct.sublist (List.filter_sublist.map Prod.fst)

theorem lookup_eq_none_iff : t.lookup name = none ↔ name ∉ t.names := by
  rw [List.lookup_eq_none_iff]
  constructor
  · intro different member
    obtain ⟨e, entry, same⟩ := List.mem_map.mp member
    exact bne_iff_ne.mp (different e entry) same.symm
  · intro absent e entry
    exact bne_iff_ne.mpr fun same => absent (List.mem_map.mpr ⟨e, entry, same.symm⟩)

/-- Where every name has one entry, looking a name up is having its entry. -/
theorem lookup_eq_some_iff (distinct : t.names.Nodup) : t.lookup name = some b ↔ (name, b) ∈ t := by
  induction t with
  | nil => simp
  | cons e rest ih =>
    obtain ⟨key, held⟩ := e
    obtain ⟨absent, distinct⟩ := List.nodup_cons.mp distinct
    rw [List.lookup_cons, List.mem_cons]
    by_cases same : name = key
    · subst same
      have alone : (name, b) ∉ rest := fun member =>
        absent (List.mem_map.mpr ⟨(name, b), member, rfl⟩)
      simp [alone, eq_comm]
    · rw [beq_eq_false_iff_ne.mpr same]
      refine (ih distinct).trans (or_iff_right fun first => ?_).symm
      exact same (Prod.mk.inj first).1

theorem lookup_update (distinct : other.names.Nodup) :
    (t.update other).lookup name = (other.lookup name).or (t.lookup name) := by
  unfold update
  induction other generalizing t with
  | nil => rfl
  | cons e rest ih =>
    obtain ⟨key, binding⟩ := e
    obtain ⟨absent, distinct⟩ := List.nodup_cons.mp distinct
    rw [List.foldl_cons, ih distinct, lookup_put, List.lookup_cons]
    by_cases same : name = key
    · rw [same, lookup_eq_none_iff.mpr absent, beq_self_eq_true]
      rfl
    · rw [beq_eq_false_iff_ne.mpr same]
      rfl

end Table

theorem accessorTable_names_nodup (run : Nat) : (accessorTable run).names.Nodup := by
  unfold Table.names accessorTable
  rw [List.map_map]
  exact (show (Accessor.all.map Accessor.name).Nodup by decide)

namespace Monty

variable {globals : Table} {name : String} {b : Binding}

/-- What a name stands for in a script: the function that is called by an announced name, or the
value of an input. -/
inductive Denotes (globals : Table) (name : String) : Binding → Prop where
  | function {b : Binding} (announced : name ∈ external globals)
    (called : (implementations globals).lookup name = some b) : Denotes globals name b
  | input {b : Binding} (given : (inputs globals).lookup name = some b) : Denotes globals name b

theorem functions_lookup (distinct : globals.names.Nodup) :
    (functions globals).lookup name = some b ↔
      globals.lookup name = some b ∧ b.isFunction = true := by
  rw [Table.lookup_eq_some_iff distinct]
  exact (Table.lookup_eq_some_iff (Table.nodup_filter distinct _)).trans List.mem_filter

theorem inputs_lookup (distinct : globals.names.Nodup) :
    (inputs globals).lookup name = some b ↔
      globals.lookup name = some b ∧ b.isFunction = false := by
  rw [Table.lookup_eq_some_iff distinct, ← Bool.not_eq_true']
  exact (Table.lookup_eq_some_iff (Table.nodup_filter distinct _)).trans List.mem_filter

theorem implementations_lookup (distinct : globals.names.Nodup) :
    (implementations globals).lookup name =
      (helpers.lookup name).or ((functions globals).lookup name) := by
  have distinctFunctions : (functions globals).names.Nodup := Table.nodup_filter distinct _
  unfold implementations
  rw [Table.lookup_update (by decide), Table.lookup_update distinctFunctions]
  cases (functions globals).lookup name <;> rfl

/-- A helper stands for itself whatever the caller gives, and a value of its name for itself too. -/
theorem denotes_iff (distinct : globals.names.Nodup) :
    Denotes globals name b ↔ helpers.lookup name = some b ∨
      globals.lookup name = some b ∧ (b.isFunction = true → name ∉ helpers.names) := by
  constructor
  · rintro (⟨-, called⟩ | given)
    · rw [implementations_lookup distinct] at called
      cases helper : helpers.lookup name with
      | some _ =>
        rw [helper] at called
        exact .inl called
      | none =>
        rw [helper] at called
        have found := ((functions_lookup distinct).mp called).1
        exact .inr ⟨found, fun _ => Table.lookup_eq_none_iff.mp helper⟩
    · obtain ⟨found, value⟩ := (inputs_lookup distinct).mp given
      exact .inr ⟨found, fun function => by cases value.symm.trans function⟩
  · rintro (helper | ⟨found, free⟩)
    · refine .function (List.mem_append_right _ (Table.names_mem_of_lookup helper)) ?_
      rw [implementations_lookup distinct, helper]
      rfl
    · cases function : b.isFunction with
      | false => exact .input ((inputs_lookup distinct).mpr ⟨found, function⟩)
      | true =>
        have called := (functions_lookup distinct).mpr ⟨found, function⟩
        refine .function (List.mem_append_left _ (Table.names_mem_of_lookup called)) ?_
        rw [implementations_lookup distinct, Table.lookup_eq_none_iff.mpr (free function)]
        exact called

theorem mem_names_iff {key : String} :
    key ∈ globals.names ↔ key ∈ (functions globals).names ∨ key ∈ (inputs globals).names := by
  constructor
  · intro member
    obtain ⟨⟨key, b⟩, entry, rfl⟩ := List.mem_map.mp member
    cases function : b.isFunction with
    | true => exact .inl (List.mem_map.mpr ⟨_, List.mem_filter.mpr ⟨entry, function⟩, rfl⟩)
    | false =>
      refine .inr (List.mem_map.mpr ⟨_, List.mem_filter.mpr ⟨entry, ?_⟩, rfl⟩)
      rw [function]
      rfl
  · rintro (member | member)
    · exact (List.filter_sublist.map Prod.fst).subset member
    · exact (List.filter_sublist.map Prod.fst).subset member

theorem listed_once_iff (distinct : globals.names.Nodup) :
    ((external globals).Nodup ∧ ∀ key ∈ external globals, key ∉ (inputs globals).names) ↔
      ∀ key ∈ helpers.names, key ∉ globals.names := by
  have apart : ∀ key ∈ (functions globals).names, key ∉ (inputs globals).names := by
    intro key announced given
    obtain ⟨⟨_, b⟩, entry, rfl⟩ := List.mem_map.mp announced
    obtain ⟨⟨_, c⟩, other, rfl⟩ := List.mem_map.mp given
    obtain ⟨entry, function⟩ := List.mem_filter.mp entry
    obtain ⟨other, value⟩ := List.mem_filter.mp other
    have first := (Table.lookup_eq_some_iff distinct).mpr entry
    have second := (Table.lookup_eq_some_iff distinct).mpr other
    cases first.symm.trans second
    simp [function] at value
  constructor
  · rintro ⟨once, outside⟩ key helper member
    rcases mem_names_iff.mp member with announced | given
    · exact (List.nodup_append.mp once).2.2 key announced key helper rfl
    · exact outside key (List.mem_append_right _ helper) given
  · intro free
    refine ⟨List.nodup_append.mpr ⟨Table.nodup_filter distinct _, by decide, ?_⟩, ?_⟩
    · rintro key announced _ helper rfl
      exact free key helper (mem_names_iff.mpr (.inl announced))
    · intro key announced given
      rcases List.mem_append.mp announced with function | helper
      · exact apart key function given
      · exact free key helper (mem_names_iff.mpr (.inr given))

end Monty

namespace Starlark

theorem names_lookup {globals : Table} {name : String} (distinct : globals.names.Nodup)
    (config : RunnerConfig) (other : name ≠ "print") :
    (names config globals).lookup name = (globals.lookup name).or (helpers.lookup name) := by
  have table : (helpers.update globals).lookup name = _ := Table.lookup_update distinct
  unfold names
  dsimp only
  split
  · rw [Table.lookup_put, beq_eq_false_iff_ne.mpr other]
    exact table
  · exact table

theorem helpers_lookup (name : String) : helpers.lookup name = Monty.helpers.lookup name := by
  by_cases encode : name = "json_encode"
  · rw [encode]
    rfl
  · by_cases decode : name = "json_decode"
    · rw [decode]
      rfl
    · simp [helpers, Monty.helpers, List.lookup_cons, beq_eq_false_iff_ne.mpr encode,
        beq_eq_false_iff_ne.mpr decode]

end Starlark

namespace Runner

variable {job : Job}

theorem names_nodup (distinct : (job.globals.getD []).names.Nodup) (run : Nat) :
    (names job run).names.Nodup :=
  Table.nodup_update distinct

theorem helper_mem_names (run : Nat) {key : String} (helper : key ∈ Table.names Monty.helpers) :
    key ∈ (names job run).names ↔ key ∈ (job.globals.getD []).names := by
  have other : key ∉ Accessor.all.map Accessor.name :=
    (show ∀ key ∈ Table.names Monty.helpers, key ∉ Accessor.all.map Accessor.name by decide) key
      helper
  have absent : key ∉ (accessorTable run).names := by
    unfold Table.names accessorTable
    rwa [List.map_map]
  exact Table.mem_names_update.trans (or_iff_left absent)

theorem agree_at_iff {globals : Table} (distinct : globals.names.Nodup) (config : RunnerConfig)
    {name : String} (other : name ≠ "print") :
    (∀ b, (Starlark.names config globals).lookup name = some b ↔ Monty.Denotes globals name b) ↔
      ∀ helper given, Monty.helpers.lookup name = some helper →
        globals.lookup name = some given → given = helper := by
  simp only [Starlark.names_lookup distinct config other, Starlark.helpers_lookup,
    Monty.denotes_iff distinct]
  constructor
  · intro agree helper given found bound
    have means := (agree helper).mpr (.inl found)
    rw [bound] at means
    exact Option.some.inj means
  · intro agree b
    cases bound : globals.lookup name with
    | none => simp
    | some given =>
      cases found : Monty.helpers.lookup name with
      | none =>
        have free := Table.lookup_eq_none_iff.mp found
        simp [free]
      | some helper =>
        obtain rfl := agree helper given found bound
        simp +contextual

/-- The names of a job, without repetition, as either engine has them. Starlark takes what the job
or else a helper gives under a name. Monty takes the helper first, and what the job gives only where
it is no function that the helper takes the place of. So the engines agree about a name unless the
job gives something else under the name of a helper; and that they agree about all names, that no
name is announced twice and that none is announced and an input too, comes to the job giving nothing
under the name of a helper. -/
theorem names_agree_iff (distinct : (job.globals.getD []).names.Nodup) (config : RunnerConfig)
    (run : Nat) :
    (∀ name, (names job run).lookup name =
        ((accessorTable run).lookup name).or ((job.globals.getD []).lookup name)) ∧
      (∀ name, name ≠ "print" → (Starlark.names config (names job run)).lookup name =
        ((names job run).lookup name).or (Starlark.helpers.lookup name)) ∧
      (∀ name b, Monty.Denotes (names job run) name b ↔ Monty.helpers.lookup name = some b ∨
        (names job run).lookup name = some b ∧
          (b.isFunction = true → name ∉ Table.names Monty.helpers)) ∧
      (∀ name, name ≠ "print" →
        ((∀ b, (Starlark.names config (names job run)).lookup name = some b ↔
            Monty.Denotes (names job run) name b) ↔
          ∀ helper given, Monty.helpers.lookup name = some helper →
            (names job run).lookup name = some given → given = helper)) ∧
      (((∀ name b, name ≠ "print" →
            ((Starlark.names config (names job run)).lookup name = some b ↔
              Monty.Denotes (names job run) name b)) ∧
          (Monty.external (names job run)).Nodup ∧
          ∀ name ∈ Monty.external (names job run), name ∉ (Monty.inputs (names job run)).names) ↔
        ∀ name ∈ Table.names Monty.helpers, name ∉ (job.globals.getD []).names) := by
  have whole := names_nodup distinct run
  have free : (∀ name ∈ Table.names Monty.helpers, name ∉ (names job run).names) ↔
      ∀ name ∈ Table.names Monty.helpers, name ∉ (job.globals.getD []).names :=
    forall₂_congr fun name helper => not_congr (helper_mem_names run helper)
  refine ⟨fun name => Table.lookup_update (accessorTable_names_nodup run),
    fun name other => Starlark.names_lookup whole config other,
    fun name b => Monty.denotes_iff whole, fun name other => agree_at_iff whole config other, ?_⟩
  rw [← free]
  constructor
  · rintro ⟨-, listed⟩
    exact (Monty.listed_once_iff whole).mp listed
  · intro absent
    refine ⟨fun name b other => ?_, (Monty.listed_once_iff whole).mpr absent⟩
    refine (agree_at_iff whole config other).mpr (fun helper given found bound => ?_) b
    have unbound := absent name (Table.names_mem_of_lookup found)
    exact absurd (Table.names_mem_of_lookup bound) unbound

/-- A job that gives a function under the name of one helper, and a value under that of the other. -/
def colliding : Job :=
  ⟨true, some [("json_encode", .function .echo false), ("json_decode", .value (.int 3))],
    fun _ => .readable .strays⟩

/-- To Starlark both names are the caller's; to Monty the first is the helper, and the second is the
helper and the value. -/
theorem names_agree_iff_colliding :
    (∀ b, (Starlark.names .initial (names colliding 0)).lookup "json_encode" = some b ↔
        b = .function .echo false) ∧
      Monty.Denotes (names colliding 0) "json_encode" (.function .jsonEncode false) ∧
      ¬Monty.Denotes (names colliding 0) "json_encode" (.function .echo false) ∧
      Monty.Denotes (names colliding 0) "json_decode" (.function .jsonDecode false) ∧
      Monty.Denotes (names colliding 0) "json_decode" (.value (.int 3)) ∧
      ¬((Monty.external (names colliding 0)).Nodup ∧
        ∀ name ∈ Monty.external (names colliding 0),
          name ∉ (Monty.inputs (names colliding 0)).names) := by
  have distinct : (colliding.globals.getD []).names.Nodup := by decide
  obtain ⟨-, starlark, monty, -, -⟩ := names_agree_iff distinct .initial 0
  refine ⟨fun b => ?_, ?_, ?_, ?_, ?_, ?_⟩
  · rw [starlark "json_encode" (by decide)]
    exact ⟨fun found => (Option.some.inj found).symm, fun same => same ▸ rfl⟩
  · exact (monty _ _).mpr (.inl rfl)
  · rintro denotes
    rcases (monty _ _).mp denotes with helper | ⟨-, free⟩
    · cases helper
    · exact free rfl (by decide)
  · exact (monty _ _).mpr (.inl rfl)
  · exact (monty _ _).mpr (.inr ⟨rfl, fun function => by cases function⟩)
  · decide

end Runner

end OptionHost
