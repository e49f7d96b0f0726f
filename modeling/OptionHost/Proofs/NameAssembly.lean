import OptionHost.Proofs.DocumentedErrors
import OptionHost.Proofs.NameAgreement
import OptionHost.Proofs.ScriptRoutes
import OptionHost.Proofs.UnderWay

/-!
# The names that an evaluation starts with

The table of names of a script has four writers: the runner copies what the caller gives and writes
the accessors into the copy, and the engine adds its helpers before or after, and printing above
all. That the last writer wins does no harm, since names of accessors are refused to the caller
before anything is done, and are no names of helpers.
-/

namespace OptionHost

open Act

/-! ## Names that are refused -/

theorem mem_sortedNames {names : List String} {name : String} :
    name ∈ sortedNames names ↔ name ∈ names :=
  (List.mergeSort_perm names _).mem_iff

theorem sortedNames_increasing {names : List String} (distinct : names.Nodup) :
    (sortedNames names).Pairwise (· < ·) := by
  have sorted : (sortedNames names).Pairwise fun s t => decide (s ≤ t) = true := by
    refine List.pairwise_mergeSort ?_ ?_ names
    · intro s t u first second
      exact decide_eq_true (String.le_trans (of_decide_eq_true first) (of_decide_eq_true second))
    · intro s t
      rw [Bool.or_eq_true, decide_eq_true_iff, decide_eq_true_iff]
      exact String.le_total s t
  have apart : (sortedNames names).Nodup :=
    (List.mergeSort_perm names _).nodup_iff.mpr distinct
  refine sorted.imp₂ (fun s t before different => ?_) apart
  exact Std.lt_of_le_of_ne (of_decide_eq_true before) different

namespace Table

variable {t : Table}

theorem mem_collisions {name : String} :
    name ∈ t.collisions ↔ name ∈ reservedNames ∧ name ∈ t.names := by
  unfold collisions
  rw [mem_sortedNames, List.mem_filter, List.contains_iff_mem]

theorem collisions_increasing (t : Table) : t.collisions.Pairwise (· < ·) :=
  sortedNames_increasing (List.Nodup.filter _ (show reservedNames.Nodup by decide))

end Table

/-! ## What names stand for -/

/-- The names that an engine gives to every script, as far as it does. -/
def helperNames : List String := ["json_encode", "json_decode", "print"]

/-- What a name stands for where an interpreter is started with the names of an evaluation. -/
def Interpreter.Denotes (i : Interpreter) (config : RunnerConfig) (globals : Table) (name : String)
    (b : Binding) : Prop :=
  match i with
  | .starlark => (Starlark.names config globals).lookup name = some b
  | .monty => Monty.Denotes globals name b
  | .standIn => globals.lookup name = some b

/-- Helpers apart, the name table of an interpreter is the table that the runner hands over. -/
theorem Interpreter.denotes_iff {globals : Table} (distinct : globals.names.Nodup)
    (i : Interpreter) (config : RunnerConfig) {name : String} (own : name ∉ helperNames)
    (b : Binding) : i.Denotes config globals name b ↔ globals.lookup name = some b := by
  have unhelped : Monty.helpers.lookup name = none := by
    refine Table.lookup_eq_none_iff.mpr fun helper => own ?_
    exact (show ∀ key ∈ Table.names Monty.helpers, key ∈ helperNames by decide) name helper
  cases i with
  | standIn => exact Iff.rfl
  | starlark =>
    have other : name ≠ "print" := fun print =>
      own (print ▸ (show "print" ∈ helperNames by decide))
    unfold Denotes
    rw [Starlark.names_lookup distinct config other, Starlark.helpers_lookup, unhelped,
      Option.or_none]
  | monty =>
    unfold Denotes
    rw [Monty.denotes_iff distinct, unhelped]
    have free := Table.lookup_eq_none_iff.mp unhelped
    simp [free]

namespace Runner

/-- A name table as scripts may rely on it: each accessor under its own name, nothing under the name
of the bridge, and under every other name what the caller gives, if it is no name of a helper. -/
structure Assembled (i : Interpreter) (config : RunnerConfig) (job : Job) (run : Nat) : Prop where
  accessors : ∀ (a : Accessor) (b : Binding),
    i.Denotes config (names job run) a.name b ↔ b = .function (.accessor run a) false
  bridge : ∀ b, ¬i.Denotes config (names job run) bridgeName b
  others : ∀ name, name ∉ reservedNames → name ∉ helperNames →
    ∀ b, i.Denotes config (names job run) name b ↔ (job.globals.getD []).lookup name = some b

variable {job : Job}

theorem names_lookup (job : Job) (run : Nat) (name : String) :
    (names job run).lookup name =
      ((accessorTable run).lookup name).or ((job.globals.getD []).lookup name) :=
  Table.lookup_update (accessorTable_names_nodup run)

theorem accessorTable_names (run : Nat) :
    (accessorTable run).names = Accessor.all.map Accessor.name := by
  unfold Table.names accessorTable
  rw [List.map_map]
  rfl

theorem assembled (distinct : (job.globals.getD []).names.Nodup)
    (clear : (job.globals.getD []).collisions = []) (i : Interpreter) (config : RunnerConfig)
    (run : Nat) : Assembled i config job run := by
  have whole := names_nodup distinct run
  have apart : ∀ name ∈ reservedNames, name ∉ helperNames := by decide
  refine ⟨fun a b => ?_, fun b => ?_, fun name unreserved own b => ?_⟩
  · have found : (names job run).lookup a.name = some (.function (.accessor run a) false) :=
      (accessorTable_binds run a).lookup_update
    rw [i.denotes_iff whole config (apart _ a.name_mem_reservedNames), found, Option.some.injEq,
      eq_comm]
  · have unwritten : bridgeName ∉ (accessorTable run).names := by
      rw [accessorTable_names]
      decide
    have ungiven := (Table.collisions_eq_nil_iff _).mp clear bridgeName List.mem_cons_self
    rw [i.denotes_iff whole config (apart _ List.mem_cons_self), names_lookup,
      Table.lookup_eq_none_iff.mpr unwritten, Table.lookup_eq_none_iff.mpr ungiven]
    exact nofun
  · have unwritten : name ∉ (accessorTable run).names := by
      rw [accessorTable_names]
      exact fun member => unreserved (List.mem_cons_of_mem _ member)
    rw [i.denotes_iff whole config own, names_lookup, Table.lookup_eq_none_iff.mpr unwritten]
    rfl

end Runner

/-! ## The start of an interpreter -/

namespace Interpreter

/-- What an interpreter is told of the names that it starts with, the latest first. -/
def setups (i : Interpreter) (site : Site) (globals : Table) : List Setup :=
  match i with
  | .starlark => [.names (Starlark.names site.config globals)]
  | .monty => Monty.setups site globals
  | .standIn => [.names globals]

/-- The script that the interpreter is started on, unless it cannot be read, or a value given to it
cannot reach the interpreter. -/
def startsOn? (i : Interpreter) (globals : Table) (source : Source) : Option Behaviour :=
  match i, source with
  | _, .unreadable _ => none
  | .starlark, .readable b =>
    if globals.all fun e => Starlark.isExpressible e.2 then some b else none
  | _, .readable b => some b

/-- The run of an engine from the start of its interpreter on. -/
def proceed (i : Interpreter) (site : Site) (globals : Table) (awaited : Bool) (b : Behaviour) :
    Act (Outcome × Option Behaviour) :=
  match i with
  | .starlark => do
    match ← Starlark.drive site (Starlark.names site.config globals) awaited b with
    | .ended outcome => return (← Starlark.conclude outcome, none)
    | .stalled rest =>
      if awaited then
        Act.say (outOfTimeRecord .starlark site.config)
        return (.error (outOfTime site.config), some rest)
      else return (.ok .null, none)
  | .monty => do
    match ← Monty.drive site (Monty.implementations globals) 0 false b with
    | .ended outcome => return (outcome, none)
    | .stalled _ =>
      Act.say (outOfTimeRecord .monty site.config)
      return (.error (outOfTime site.config), none)
  | .standIn => do return (← StandIn.drive site globals b, none)

end Interpreter

theorem Starlark.begin_of_starts (site : Site) {globals : Table}
    (expressible : (globals.all fun e => isExpressible e.2) = true) (yields : Bool)
    (b : Behaviour) (h : Host) :
    begin site globals (.readable b) yields h =
      (drive site (names site.config globals) yields b >>= fun progress =>
        match progress with
        | .ended outcome => do return .ended (← conclude outcome)
        | .stalled rest => return .stalled rest)
          (site.told [.names (names site.config globals)] h) := by
  unfold begin
  refine (congrFun (if_pos expressible) h).trans ?_
  exact bind_of_ok (record_apply _ h)

theorem Starlark.begin_of_inexpressible (site : Site) {globals : Table}
    (inexpressible : ¬(globals.all fun e => isExpressible e.2) = true) (yields : Bool)
    (b : Behaviour) (h : Host) :
    ∃ r, begin site globals (.readable b) yields h =
      some (.ok (.ended (.error (reportedFailure r))),
        { h with journal := sayEntries h (failureRecord .starlark r) ++ h.journal }) := by
  refine ⟨⟨.wrongType (.notEncodable "bytes"), none⟩, ?_⟩
  unfold begin
  refine (congrFun (if_neg inexpressible) h).trans ?_
  exact bind_of_ok (bind_of_ok (say_apply _ h))

namespace Runner

/-- An engine that starts its interpreter tells it the names of the script once, before all else,
and looks names up in what it told. -/
theorem runEngine_of_starts {i : Interpreter} {site : Site} {globals : Table} {job : Job}
    {b : Behaviour} (starts : i.startsOn? globals (job.source i) = some b) (h : Host) :
    runEngine i site globals job h =
      i.proceed site globals job.awaited b (site.told (i.setups site globals) h) := by
  unfold runEngine
  cases source : job.source i with
  | unreadable message =>
    rw [source] at starts
    cases i <;> cases starts
  | readable behaviour =>
    rw [source] at starts
    cases i with
    | standIn =>
      cases starts
      exact bind_congr_apply (bind_of_ok (record_apply _ h)) _
    | monty =>
      cases starts
      refine (bind_congr_apply (bind_of_ok (Monty.begin_apply site globals h)) _).trans ?_
      rw [bind_assoc]
      refine congrFun (bind_congr fun progress => ?_) _
      cases progress with
      | ended outcome => rfl
      | stalled rest => exact bind_assoc _ _ _
    | starlark =>
      obtain ⟨expressible, same⟩ := Option.ite_none_right_eq_some.mp starts
      cases same
      have begun (yields : Bool) := Starlark.begin_of_starts site expressible yields b h
      unfold Interpreter.proceed
      cases awaited : job.awaited with
      | true =>
        refine (bind_congr_apply (begun true) _).trans ?_
        rw [bind_assoc]
        refine congrFun (bind_congr fun progress => ?_) _
        cases progress with
        | ended outcome => exact bind_assoc _ _ _
        | stalled rest => rfl
      | false =>
        refine (bind_congr_apply (bind_congr_apply (begun false) _) _).trans ?_
        rw [bind_assoc, bind_assoc]
        refine congrFun (bind_congr fun progress => ?_) _
        cases progress with
        | ended outcome => simp only [bind_assoc, pure_bind]
        | stalled rest => rfl

/-- An engine that does not start its interpreter tells it nothing. -/
theorem runEngine_of_idle {i : Interpreter} {site : Site} {globals : Table} {job : Job}
    (idle : i.startsOn? globals (job.source i) = none) (h : Host) :
    ∃ outcome noted, runEngine i site globals job h =
        some (.ok (outcome, none), { h with journal := noted ++ h.journal }) ∧
      ∀ e ∈ noted, ∃ r, e = .logged r := by
  unfold runEngine
  cases source : job.source i with
  | unreadable message =>
    cases i with
    | starlark =>
      refine ⟨.error (unreadable "StarlarkError" message), [], ?_, List.forall_mem_nil _⟩
      cases job.awaited with
      | true => rfl
      | false => rfl
    | monty => exact ⟨.error (unreadable "MontySyntaxError" message), [], rfl, List.forall_mem_nil _⟩
    | standIn => exact ⟨.ok .null, [], rfl, List.forall_mem_nil _⟩
  | readable b =>
    rw [source] at idle
    cases i with
    | monty => cases idle
    | standIn => cases idle
    | starlark =>
      have inexpressible : ¬(globals.all fun e => Starlark.isExpressible e.2) = true := by
        intro expressible
        exact absurd ((if_pos expressible).symm.trans idle) (Option.some_ne_none b)
      obtain ⟨r, ended⟩ := Starlark.begin_of_inexpressible site inexpressible job.awaited b h
      refine ⟨.error (reportedFailure r), sayEntries h (failureRecord .starlark r), ?_, ?_⟩
      · cases awaited : job.awaited with
        | true =>
          rw [awaited] at ended
          exact bind_of_ok ended
        | false =>
          rw [awaited] at ended
          exact bind_of_ok (bind_of_ok ended)
      · intro e member
        unfold sayEntries at member
        split at member
        · exact ⟨_, List.mem_singleton.mp member⟩
        · cases member

theorem evaluate_of_starts {respond : Response} {id : Nat} {job : Job} {h : Host}
    {runner : Runner} (found : h.runners[id]? = some runner)
    (admitted : refusal? runner job = none) {b : Behaviour}
    (starts : runner.interpreter.startsOn? (names job h.evaluations.length)
      (job.source runner.interpreter) = some b) :
    evaluate respond id job h =
      (runner.interpreter.proceed (runner.site respond h) (names job h.evaluations.length)
          job.awaited b >>= fun p =>
        finish (runner.site respond h) (names job h.evaluations.length) p.1 p.2)
        ((runner.site respond h).told
          (runner.interpreter.setups (runner.site respond h) (names job h.evaluations.length))
          (runner.entered h)) :=
  (evaluate_apply found admitted).trans (bind_congr_apply (runEngine_of_starts starts _) _)

/-! ## What an evaluation raises -/

theorem booked_of_ran {store : Store} {h h₂ : Host} (reached : (Host.ofStore store).Path h)
    {depth : Nat} {job : Job} {runner : Runner} {p : Outcome × Option Behaviour}
    (ran : runEngine runner.interpreter (runner.site (Session.respond depth) h)
      (names job h.evaluations.length) job (runner.entered h) = some (.ok p, h₂)) :
    h₂.Booked ∧ h.evaluations.length < h₂.evaluations.length := by
  have engine := (runEngine_byMoves runner.interpreter (runner.site (Session.respond depth) h)
    (Session.respond_byMoves depth) (names job h.evaluations.length) job).path ran
  refine ⟨Host.Path.booked (reached.trans ((entered_path runner h).trans engine))
    (.ofStore store), ?_⟩
  have grown := Host.Path.evaluations_le engine
  simp only [entered, List.length_append, List.length_cons, List.length_nil] at grown
  omega

/-- What holds of errors of scripting, of option errors, of what comes of a text that cannot be
read, and of the failure to write one, holds of whatever an evaluation raises. -/
theorem evaluate_blames {P : Fault → Prop} (script : ∀ fault, fault.isScriptError = true → P fault)
    (option : ∀ fault, fault.isOptionError = true → P fault)
    (refused : ∀ interpreterClass message, P (unreadable interpreterClass message).fault)
    (unwritten : P .unwritable) {store : Store} {h h' : Host}
    (reached : (Host.ofStore store).Path h) {depth id : Nat} {job : Job} {runner : Runner}
    (found : h.runners[id]? = some runner)
    (real : runner.interpreter ≠ .standIn) (admitted : refusal? runner job = none) {r : Raised}
    (raised : evaluate (Session.respond depth) id job h = some (.error r, h')) : P r.fault := by
  obtain ⟨outcome, rest, h₂, _, ran, reported, -⟩ := evaluate_cases found admitted raised
  cases outcome with
  | ok v => cases reported
  | error failure =>
    have blamed : P failure.fault :=
      runEngine_blames (P := fun r => P r.fault) (fun r => script r.fault) real _ _
        (fun cls message _ => refused cls message) (fun _ _ _ => unwritten) (fun _ => unwritten) ran
        failure rfl
    cases scripting : failure.fault.isScriptError with
    | false =>
      have same : report ((h₂.evaluations[h.evaluations.length]?).getD ⟨0, true, []⟩)
          (.error failure) = .error failure := if_neg (ne_true_of_eq_false scripting)
      rw [same] at reported
      cases reported
      exact blamed
    | true =>
      obtain ⟨booked, opened⟩ := booked_of_ran reached ran
      rw [report_of_scriptError booked opened scripting] at reported
      cases rejections : h₂.rejections h.evaluations.length with
      | nil =>
        rw [rejections] at reported
        cases reported
        exact blamed
      | cons failed earlier =>
        rw [rejections] at reported
        cases reported
        have member : failed ∈ h₂.rejections h.evaluations.length :=
          rejections ▸ List.mem_cons_self
        have rejected := isOptionError_of_mem member
        exact option failed.fault rejected

theorem unreadable_ne_reservedNames (interpreterClass message : String) (names : List String) :
    (unreadable interpreterClass message).fault ≠ .wrongValue (.reservedNames names) := by
  unfold unreadable
  dsimp only
  split
  · exact nofun
  · split
    · intro same
      cases same
    · exact nofun

/-- Reserved names are refused before anything is done. -/
theorem evaluate_of_collisions {respond : Response} {id : Nat} {job : Job} {h : Host}
    {runner : Runner} (found : h.runners[id]? = some runner) (opened : runner.closed = false)
    (fits : job.awaited = true ∨ runner.config.engine = .text "starlark")
    (collides : (job.globals.getD []).collisions ≠ []) :
    evaluate respond id job h =
      some (.error ⟨.wrongValue (.reservedNames (job.globals.getD []).collisions), none⟩, h) := by
  refine evaluate_of_refused found ?_
  rw [refusal?_of_open fits opened]
  split
  · exact absurd ‹_› collides
  · rfl

/-- An evaluation refuses names if the caller gives any reserved ones, and then all of them. -/
theorem evaluate_refuses_iff {store : Store} {h : Host} (reached : (Host.ofStore store).Path h)
    {depth id : Nat} {job : Job} {runner : Runner} (found : h.runners[id]? = some runner)
    (opened : runner.closed = false)
    (fits : job.awaited = true ∨ runner.config.engine = .text "starlark")
    (real : runner.interpreter ≠ .standIn) (refused : List String) :
    (∃ cause h', evaluate (Session.respond depth) id job h =
        some (.error ⟨.wrongValue (.reservedNames refused), cause⟩, h')) ↔
      (job.globals.getD []).collisions ≠ [] ∧ refused = (job.globals.getD []).collisions := by
  by_cases clear : (job.globals.getD []).collisions = []
  · refine iff_of_false ?_ fun collides => collides.1 clear
    rintro ⟨cause, h', raised⟩
    have admitted := refusal?_eq_none fits opened clear
    refine evaluate_blames (P := fun fault => fault ≠ .wrongValue (.reservedNames refused))
      ?_ ?_ (fun cls message => unreadable_ne_reservedNames cls message refused) nofun reached found
      real admitted raised rfl
    · rintro _ script rfl
      cases script
    · rintro _ option rfl
      cases option
  · rw [evaluate_of_collisions found opened fits clear]
    constructor
    · rintro ⟨cause, h', same⟩
      cases same
      exact ⟨clear, rfl⟩
    · rintro ⟨-, rfl⟩
      exact ⟨none, h, rfl⟩

/-! ## Where tables are kept -/

/-- The names of an evaluation, put together in a table of their own: what the caller gives is kept
at a place, or is nothing, and is copied before it is looked at. -/
def assemble (runner : Runner) (given : Option Nat) (run : Nat) (tables : List Table) :
    Except Fault Nat × List Table :=
  if runner.closed then (.error (.script .runnerClosed), tables)
  else
    let copy := tables.length
    let copied := tables ++ [given.elim [] fun place => tables.getD place []]
    match Table.collisions (copied.getD copy []) with
    | [] =>
      (.ok copy, (accessorTable run).foldl
        (fun tables e => tables.modify copy (Table.put e.1 e.2)) copied)
    | names => (.error (.wrongValue (.reservedNames names)), copied)

/-- Writing into the last table changes no other one. -/
theorem foldl_modify_last (tables : List Table) (t entries : Table) :
    entries.foldl (fun ts e => ts.modify tables.length (Table.put e.1 e.2)) (tables ++ [t]) =
      tables ++ [t.update entries] := by
  unfold Table.update
  induction entries generalizing t with
  | nil => rfl
  | cons e rest ih =>
    have written : (tables ++ [t]).modify tables.length (Table.put e.1 e.2) =
        tables ++ [Table.put e.1 e.2 t] := by
      clear ih
      induction tables with
      | nil => rfl
      | cons first others ih => simp [ih]
    rw [List.foldl_cons, List.foldl_cons, written, ih]

theorem assemble_eq {runner : Runner} (opened : runner.closed = false) {given : Option Nat}
    {tables : List Table} {job : Job}
    (held : (given.elim [] fun place => tables.getD place []) = job.globals.getD []) (run : Nat) :
    assemble runner given run tables =
      match (job.globals.getD []).collisions with
      | [] => (.ok tables.length, tables ++ [names job run])
      | names => (.error (.wrongValue (.reservedNames names)), tables ++ [job.globals.getD []]) := by
  unfold assemble
  rw [opened, held]
  have copied : (tables ++ [job.globals.getD []]).getD tables.length [] = job.globals.getD [] := by
    simp
  dsimp only
  rw [copied, if_neg Bool.false_ne_true]
  split
  · rw [foldl_modify_last]
    rfl
  · rfl

/-- An evaluation by an open runner with an engine that takes the job. It raises the reserved names
that the caller gives, sorted, if and only if there are any, and then it does nothing else. Otherwise
it tells its interpreter nothing, or it starts it once, before all else, on a table in which the
names of accessors stand for the accessors of this evaluation, which go to the bridge of the runner,
the name of the bridge stands for nothing, and every other name that is no helper's for what the
caller gives under it. In either case the table of the caller stays as it is. -/
theorem evaluate_assembles {store : Store} {h : Host} (reached : (Host.ofStore store).Path h)
    {depth id : Nat} {job : Job} {runner : Runner} (found : h.runners[id]? = some runner)
    (opened : runner.closed = false)
    (fits : job.awaited = true ∨ runner.config.engine = .text "starlark")
    (real : runner.interpreter ≠ .standIn) (distinct : (job.globals.getD []).names.Nodup) :
    let given := job.globals.getD []
    let run := h.evaluations.length
    let site := runner.site (Session.respond depth) h
    (given.collisions.Pairwise (· < ·) ∧
      ∀ name, name ∈ given.collisions ↔ name ∈ reservedNames ∧ name ∈ given.names) ∧
    (∀ refused, (∃ cause h', evaluate (Session.respond depth) id job h =
        some (.error ⟨.wrongValue (.reservedNames refused), cause⟩, h')) ↔
      given.collisions ≠ [] ∧ refused = given.collisions) ∧
    (given.collisions ≠ [] → evaluate (Session.respond depth) id job h =
      some (.error ⟨.wrongValue (.reservedNames given.collisions), none⟩, h)) ∧
    (given.collisions = [] →
      Assembled runner.interpreter runner.config job run ∧
      (∀ h₁, (runner.entered h).Spares h₁ → ∀ a args kwargs,
        accessWithin site.respond run a args kwargs h₁ =
          (attempt (access site.respond runner.bridge a args kwargs) >>= fun outcome =>
            noteAccess run a outcome >>= fun _ => ofOutcome outcome) h₁) ∧
      (∀ b, runner.interpreter.startsOn? (names job run) (job.source runner.interpreter) = some b →
        evaluate (Session.respond depth) id job h =
          (runner.interpreter.proceed site (names job run) job.awaited b >>= fun p =>
            finish site (names job run) p.1 p.2)
            (site.told (runner.interpreter.setups site (names job run)) (runner.entered h))) ∧
      (runner.interpreter.startsOn? (names job run) (job.source runner.interpreter) = none →
        ∃ outcome noted, runEngine runner.interpreter site (names job run) job (runner.entered h) =
            some (.ok (outcome, none),
              { runner.entered h with journal := noted ++ (runner.entered h).journal }) ∧
          ∀ e ∈ noted, ∃ r, e = .logged r)) ∧
    ∀ tables place, (Option.elim place [] fun place => tables.getD place []) = given →
      ∃ own, (assemble runner place run tables).2 = tables ++ [own] ∧
        (given.collisions = [] →
          (assemble runner place run tables).1 = .ok tables.length ∧ own = names job run) := by
  intro given run site
  refine ⟨⟨given.collisions_increasing, fun name => Table.mem_collisions⟩,
    evaluate_refuses_iff reached found opened fits real, evaluate_of_collisions found opened fits,
    fun clear => ?_, fun tables place held => ?_⟩
  · have admitted := refusal?_eq_none fits opened clear
    refine ⟨assembled distinct clear _ _ _, fun h₁ spared a args kwargs => ?_,
      fun b starts => evaluate_of_starts found admitted starts, fun idle => runEngine_of_idle idle _⟩
    exact accessWithin_of_runs ((Host.Runs.entered runner h).spared spared) _ a args kwargs
  · rw [assemble_eq opened held run]
    split
    · exact ⟨_, rfl, fun _ => ⟨rfl, rfl⟩⟩
    · rename_i collides
      exact ⟨_, rfl, fun clear => absurd clear (by simpa using collides)⟩

/-- A job that gives something under the name of an accessor and under that of the bridge. -/
def intruding : Job :=
  ⟨true, some [("opt_set_wrap", .function .echo false), ("limit", .value (.int 3)),
    (bridgeName, .value .null)], fun _ => .readable .strays⟩

def lending : Job :=
  ⟨true, some [("limit", .value (.int 3))], fun _ => .readable (.returns .null)⟩

/-- The one job is refused by both names, in order; the other one has what it gives, and the
accessors. -/
theorem evaluate_assembles_intruding :
    ∃ h, (Host.ofStore default).Path h ∧
      evaluate (Session.respond 1) 0 intruding h =
        some (.error ⟨.wrongValue (.reservedNames [bridgeName, "opt_set_wrap"]), none⟩, h) ∧
      (Fault.wrongValue (.reservedNames [bridgeName, "opt_set_wrap"])).className = "ValueError" ∧
      Interpreter.starlark.Denotes .initial (names lending 0) "opt_get_wrap"
        (.function (.accessor 0 (.getter .wrap)) false) ∧
      (∀ b, ¬Interpreter.starlark.Denotes .initial (names lending 0) bridgeName b) ∧
      Interpreter.starlark.Denotes .initial (names lending 0) "limit" (.value (.int 3)) := by
  let runner : Runner := ⟨.initial, .starlark, 0, false⟩
  let h : Host :=
    { Host.ofStore default with
      bridges := [true], bridge := some 0, runners := [runner], runner := some 0 }
  have reached : (Host.ofStore default).Path h :=
    (Relation.ReflTransGen.single .bridgeOpened).tail (.runnerOpened runner)
  have found : h.runners[0]? = some runner := rfl
  have reserved : (reservedNames.filter fun name => (intruding.globals.getD []).names.contains name) =
      [bridgeName, "opt_set_wrap"] := by decide
  have collides : (intruding.globals.getD []).collisions = [bridgeName, "opt_set_wrap"] := by
    unfold Table.collisions sortedNames
    rw [reserved]
    exact List.mergeSort_of_pairwise (by decide)
  have clear : (lending.globals.getD []).collisions = [] :=
    (Table.collisions_eq_nil_iff _).mpr (by decide)
  obtain ⟨-, -, refused, -, -⟩ :=
    @evaluate_assembles _ _ reached 1 0 intruding _ found rfl (.inl rfl) (by decide) (by decide)
  obtain ⟨-, -, -, started, -⟩ :=
    @evaluate_assembles _ _ reached 1 0 lending _ found rfl (.inl rfl) (by decide) (by decide)
  rw [collides] at refused
  obtain ⟨⟨accessors, bridge, others⟩, -, -, -⟩ := started clear
  exact ⟨h, reached, refused (List.cons_ne_nil _ _), rfl, (accessors (.getter .wrap) _).mpr rfl,
    bridge, (others "limit" (by decide) (by decide) _).mpr rfl⟩

end Runner

end OptionHost
