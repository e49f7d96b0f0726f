import Mathlib.Data.List.Basic
import OptionHost.Proofs.Completion
import OptionHost.Proofs.Snapshot

/-!
# Calls between halts

The loop around the Monty interpreter knows host functions by their names only. So it is taken here
over any way of carrying out a call, and compared with what the interpreter yields: one round for
each snapshot, in which the function of that name is invoked once, or not at all if there is none.
What an invocation does to the host is passed on as it is, so one invocation too many, too few or
in another place would not go unnoticed.
-/

namespace OptionHost

open Act

/-- The function that a table has under a name. -/
def Table.function? (t : Table) (name : String) : Option HostFunction :=
  match t.lookup name with
  | some (.function f _) => some f
  | _ => none

namespace Monty

/-! ## The loop -/

/-- A way of carrying out calls of host functions. -/
abbrev Invocation := HostFunction → List Value → Entries → Act Value

def answerBy (invoke : Invocation) (site : Site) (table : Table) (snapshot : Nat) (name : String)
    (args : List Value) (kwargs : Entries) : Act (Option Outcome) := do
  match table.lookup name with
  | some (.function .forever true) => return none
  | some (.function f _) => do
    let result ← Act.attempt (invoke f args kwargs)
    resume site snapshot false result
    match result with
    | .ok v =>
      if isConvertible v then return some (.ok v)
      else
        resume site snapshot false (.error notConvertible)
        return some (.error notConvertible)
    | .error r => return some (.error r)
  | _ => do
    resume site snapshot false (.error (undefinedName name))
    return some (.error (undefinedName name))

/-- The loop of the engine, over a way of carrying out calls. -/
def driveBy (invoke : Invocation) (site : Site) (table : Table) :
    (snapshots : Nat) → (afterValue : Bool) → Behaviour → Act Progress
  | _, _, .returns v => return .ended (.ok v)
  | snapshots, afterValue, .raises r => do
    if afterValue then
      resume site snapshots true (.error r)
      return .ended (.error (← settle alreadyResumed))
    else return .ended (.error (← settle r))
  | _, _, .strays => return .ended (.error (Fault.failed .unexpectedProgress : Fault))
  | snapshots, afterValue, .prints text next => do
    print site text
    driveBy invoke site table snapshots afterValue next
  | _, _, .blocks next => return .stalled next
  | snapshots, _, .calls name args kwargs next => do
    match ← answerBy invoke site table (snapshots + 1) name args kwargs with
    | none => return .stalled (next (.ok .null))
    | some given =>
      Act.record (.called site.run name given)
      driveBy invoke site table (snapshots + 1) given.isOk (next given)

def evaluateBy (invoke : Invocation) (site : Site) (globals : Table) (b : Behaviour) :
    Act Outcome := do
  begin site globals
  match ← driveBy invoke site (implementations globals) 0 false b with
  | .ended outcome => return outcome
  | .stalled _ =>
    Act.say (outOfTimeRecord .monty site.config)
    return .error (outOfTime site.config)

theorem driveBy_invoke (site : Site) (table : Table) (b : Behaviour) :
    ∀ snapshots afterValue,
      driveBy site.invoke site table snapshots afterValue b =
        drive site table snapshots afterValue b := by
  induction b with
  | returns v => exact fun _ _ => rfl
  | raises r => exact fun _ _ => rfl
  | strays => exact fun _ _ => rfl
  | blocks next ih => exact fun _ _ => rfl
  | prints text next ih =>
    intro snapshots afterValue
    unfold driveBy drive
    rw [ih]
  | calls name args kwargs next ih =>
    intro snapshots afterValue
    unfold driveBy drive
    simp only [ih]
    rfl

/-- The loop of an evaluation is the one that carries out calls as its site does. -/
theorem evaluateBy_invoke (site : Site) (globals : Table) (b : Behaviour) :
    evaluateBy site.invoke site globals b = evaluateAwaited site globals (.readable b) := by
  unfold evaluateBy
  rw [driveBy_invoke]
  rfl

/-! ## Rounds -/

/-- A halt of the interpreter at a call. -/
structure Snapshot where
  name : String
  args : List Value
  kwargs : Entries

/-- The invocation that a snapshot calls for, if the table knows its function. -/
def Snapshot.invocation? (table : Table) (s : Snapshot) :
    Option (HostFunction × List Value × Entries) :=
  (table.function? s.name).map fun f => (f, s.args, s.kwargs)

/-- What happened at a snapshot: the function that was invoked, if any, and what it came to. -/
structure Round where
  snapshot : Snapshot
  invoked : Option (HostFunction × Outcome)

namespace Round

def invocation? (r : Round) : Option (HostFunction × List Value × Entries) :=
  r.invoked.map fun p => (p.1, r.snapshot.args, r.snapshot.kwargs)

/-- What the snapshot is resumed with first. -/
def answer (r : Round) : Outcome :=
  match r.invoked with
  | some (_, outcome) => outcome
  | none => .error (undefinedName r.snapshot.name)

/-- What it is resumed with next, where the interpreter cannot take over the value returned. -/
def refusal? (r : Round) : Option Outcome :=
  match r.answer with
  | .ok v => if isConvertible v then none else some (.error notConvertible)
  | .error _ => none

/-- What the script goes on with. -/
def given (r : Round) : Outcome := r.refusal?.getD r.answer

def resumes (r : Round) : List Outcome := r.answer :: r.refusal?.toList

/-- What the engine notes of a round, the latest first. -/
def entries (run snapshot : Nat) (r : Round) : List Entry :=
  .called run r.snapshot.name r.given :: (r.resumes.map (.resumed run snapshot false)).reverse

/-- A round on a table: one invocation with the arguments of the snapshot, or none if the table has
no such function, and from then on nothing but resumes of that snapshot. -/
structure Made (invoke : Invocation) (run : Nat) (table : Table) (snapshot : Nat) (r : Round)
    (h h' : Host) : Prop where
  known : r.invoked.map Prod.fst = table.function? r.snapshot.name
  effect : ∃ h₁,
    (match r.invoked with
      | some (f, outcome) => invoke f r.snapshot.args r.snapshot.kwargs h = some (outcome, h₁)
      | none => h₁ = h) ∧
    h' = { h₁ with journal := r.entries run snapshot ++ h₁.journal }

end Round

/-- Every function of the table comes back, with a value or with an exception. -/
structure Returning (calm : List (ListenerId × Listener) → Prop) (invoke : Invocation)
    (table : Table) : Prop where
  ends : ∀ name f awaited, table.lookup name = some (.function f awaited) →
    ∀ args kwargs, (invoke f args kwargs).Ends calm
  notForever : ∀ name, table.lookup name ≠ some (.function .forever true)

section Answers

variable {invoke : Invocation} {site : Site} {table : Table} {h h₁ : Host}

/-- The host when a snapshot has been resumed. -/
def Round.resumed (run snapshot : Nat) (r : Round) (h : Host) : Host :=
  { h with journal := (r.resumes.map (.resumed run snapshot false)).reverse ++ h.journal }

theorem answerBy_of_function {s : Snapshot} {f : HostFunction} {awaited : Bool}
    {outcome : Outcome} (k : Nat)
    (found : table.lookup s.name = some (.function f awaited))
    (returning : table.lookup s.name ≠ some (.function .forever true))
    (came : invoke f s.args s.kwargs h = some (outcome, h₁)) :
    answerBy invoke site table k s.name s.args s.kwargs h =
      some (.ok (some (Round.given ⟨s, some (f, outcome)⟩)),
        Round.resumed site.run k ⟨s, some (f, outcome)⟩ h₁) := by
  have called : answerBy invoke site table k s.name s.args s.kwargs = do
      let result ← attempt (invoke f s.args s.kwargs)
      resume site k false result
      match result with
      | .ok v =>
        if isConvertible v then return some (.ok v)
        else
          resume site k false (.error notConvertible)
          return some (.error notConvertible)
      | .error r => return some (.error r) := by
    unfold answerBy
    split
    · exact absurd ‹_› returning
    · rename_i same
      cases found.symm.trans same
      rfl
    · rename_i unknown
      exact absurd found (unknown f awaited)
  rw [called, bind_of_ok (attempt_of_some came)]
  refine (bind_of_ok (record_apply _ _)).trans ?_
  cases outcome with
  | error r => rfl
  | ok v =>
    cases convertible : isConvertible v with
    | true =>
      have accepted : Round.refusal? ⟨s, some (f, .ok v)⟩ = none := if_pos convertible
      unfold Round.resumed Round.resumes Round.given
      rw [accepted]
      exact congrFun (if_pos convertible) _
    | false =>
      have refused : Round.refusal? ⟨s, some (f, .ok v)⟩ = some (.error notConvertible) :=
        if_neg (ne_true_of_eq_false convertible)
      unfold Round.resumed Round.resumes Round.given
      rw [refused]
      exact congrFun (if_neg (ne_true_of_eq_false convertible)) _

theorem answerBy_of_unknown {s : Snapshot} (k : Nat) (unknown : table.function? s.name = none) :
    answerBy invoke site table k s.name s.args s.kwargs h =
      some (.ok (some (Round.given ⟨s, none⟩)), Round.resumed site.run k ⟨s, none⟩ h) := by
  have absent (f : HostFunction) (awaited : Bool) :
      table.lookup s.name ≠ some (.function f awaited) := by
    intro found
    unfold Table.function? at unknown
    rw [found] at unknown
    cases unknown
  have refused : answerBy invoke site table k s.name s.args s.kwargs = do
      resume site k false (.error (undefinedName s.name))
      return some (.error (undefinedName s.name)) := by
    unfold answerBy
    split
    · exact absurd ‹_› (absent _ _)
    · exact absurd ‹_› (absent _ _)
    · rfl
  rw [refused]
  rfl

/-- One turn of the loop at a call is one round. -/
theorem driveBy_calls {calm : List (ListenerId × Listener) → Prop} (site : Site)
    (returning : Returning calm invoke table) (k : Nat) (after : Bool) (s : Snapshot)
    (next : Outcome → Behaviour) (listening : calm h.listeners) :
    ∃ (r : Round) (h' : Host), r.snapshot = s ∧ r.Made invoke site.run table (k + 1) h h' ∧
      calm h'.listeners ∧
      driveBy invoke site table k after (.calls s.name s.args s.kwargs next) h =
        driveBy invoke site table (k + 1) r.given.isOk (next r.given) h' := by
  -- Once the snapshot has been resumed, the result of the call is noted and the loop goes on.
  have goesOn {r : Round} {h₁ : Host} (own : r.snapshot = s)
      (answered : answerBy invoke site table (k + 1) s.name s.args s.kwargs h =
        some (.ok (some r.given), r.resumed site.run (k + 1) h₁)) :
      driveBy invoke site table k after (.calls s.name s.args s.kwargs next) h =
        driveBy invoke site table (k + 1) r.given.isOk (next r.given)
          { h₁ with journal := r.entries site.run (k + 1) ++ h₁.journal } := by
    subst own
    conv => lhs; unfold driveBy
    rw [bind_of_ok answered]
    exact bind_of_ok (record_apply _ _)
  cases known : table.function? s.name with
  | none =>
    refine ⟨⟨s, none⟩, _, rfl, ⟨known.symm, h, rfl, rfl⟩, listening, ?_⟩
    exact goesOn rfl (answerBy_of_unknown (k + 1) known)
  | some f =>
    obtain ⟨awaited, found⟩ : ∃ awaited, table.lookup s.name = some (.function f awaited) := by
      unfold Table.function? at known
      split at known
      · rename_i awaited found
        cases known
        exact ⟨awaited, found⟩
      · cases known
    obtain ⟨outcome, h₁, came, calm₁⟩ :=
      returning.ends s.name f awaited found s.args s.kwargs h listening
    refine ⟨⟨s, some (f, outcome)⟩, _, rfl, ⟨known.symm, h₁, came, rfl⟩, calm₁, ?_⟩
    exact goesOn rfl (answerBy_of_function (k + 1) found (returning.notForever s.name) came)

end Answers

/-- A script goes on from one point to another one, on a host, by rounds of the loop and by texts
that it prints. -/
inductive Course (invoke : Invocation) (site : Site) (table : Table) :
    (snapshots : Nat) → Behaviour → Host → List Round → Behaviour → Host → Prop where
  | stays {k : Nat} {b : Behaviour} {h : Host} : Course invoke site table k b h [] b h
  | prints {k : Nat} {text : String} {next rest : Behaviour} {h h₁ h₂ : Host} {rounds : List Round}
      (printed : print site text h = some (.ok (), h₁))
      (course : Course invoke site table k next h₁ rounds rest h₂) :
      Course invoke site table k (.prints text next) h rounds rest h₂
  | calls {k : Nat} {name : String} {args : List Value} {kwargs : Entries}
      {invoked : Option (HostFunction × Outcome)} {next : Outcome → Behaviour} {rest : Behaviour}
      {h h₁ h₂ : Host} {rounds : List Round}
      (made : Round.Made invoke site.run table (k + 1) ⟨⟨name, args, kwargs⟩, invoked⟩ h h₁)
      (course : Course invoke site table (k + 1) (next (Round.given ⟨⟨name, args, kwargs⟩, invoked⟩))
        h₁ rounds rest h₂) :
      Course invoke site table k (.calls name args kwargs next) h
        (⟨⟨name, args, kwargs⟩, invoked⟩ :: rounds) rest h₂

/-- The snapshots that the interpreter yields on its way from one point of a script to another one,
by what the script is told at each. -/
inductive Yields : Behaviour → List (Snapshot × Outcome) → Behaviour → Prop where
  | stays {b : Behaviour} : Yields b [] b
  | prints {text : String} {next rest : Behaviour} {yielded : List (Snapshot × Outcome)}
      (later : Yields next yielded rest) : Yields (.prints text next) yielded rest
  | calls {name : String} {args : List Value} {kwargs : Entries} {told : Outcome}
      {next : Outcome → Behaviour} {rest : Behaviour} {yielded : List (Snapshot × Outcome)}
      (later : Yields (next told) yielded rest) :
      Yields (.calls name args kwargs next) ((⟨name, args, kwargs⟩, told) :: yielded) rest

namespace Course

variable {invoke : Invocation} {site : Site} {table : Table} {k : Nat} {b rest : Behaviour}
  {h h' : Host} {rounds : List Round}

/-- Every snapshot has a round of its own, and no round is without one. -/
theorem yields (course : Course invoke site table k b h rounds rest h') :
    Yields b (rounds.map fun r => (r.snapshot, r.given)) rest := by
  induction course with
  | stays => exact .stays
  | prints _ _ ih => exact .prints ih
  | calls _ _ ih => exact .calls ih

theorem made (course : Course invoke site table k b h rounds rest h') :
    ∀ r ∈ rounds, ∃ n h₁ h₂, r.Made invoke site.run table n h₁ h₂ := by
  induction course with
  | stays =>
    rintro r ⟨⟩
  | prints _ _ ih => exact ih
  | calls first _ ih =>
    intro r member
    rcases List.mem_cons.mp member with rfl | later
    · exact ⟨_, _, _, first⟩
    · exact ih r later

end Course

theorem Round.Made.invocation {invoke : Invocation} {run n : Nat} {table : Table} {r : Round}
    {h h' : Host} (made : r.Made invoke run table n h h') :
    r.invocation? = r.snapshot.invocation? table := by
  unfold Snapshot.invocation? Round.invocation?
  rw [← made.known, Option.map_map]
  rfl

/-- The invocations are those that the snapshots call for, in the same order. -/
theorem Course.invocations {invoke : Invocation} {site : Site} {table : Table} {k : Nat}
    {b rest : Behaviour} {h h' : Host} {rounds : List Round}
    (course : Course invoke site table k b h rounds rest h') :
    rounds.filterMap Round.invocation? =
      (rounds.map Round.snapshot).filterMap (Snapshot.invocation? table) := by
  rw [List.filterMap_map]
  refine List.filterMap_congr fun r member => ?_
  obtain ⟨_, _, _, made⟩ := course.made r member
  exact made.invocation

/-! ## The end of the loop -/

/-- How an evaluation ends with a script that yields no call any more. -/
def Concludes (config : RunnerConfig) : Behaviour → Outcome → Prop
  | .returns v, outcome => outcome = .ok v
  | .raises _, outcome => ∃ r, outcome = .error r
  | .blocks _, outcome => outcome = .error (outOfTime config)
  | .strays, outcome => outcome = .error ⟨.failed .unexpectedProgress, none⟩
  | .calls .., _ => False
  | .prints .., _ => False

/-- An entry that the engine may still make when it has seen the last snapshot: a record, or a
second attempt at that snapshot. -/
def Closing (run snapshot : Nat) : Entry → Prop
  | .logged _ => True
  | .resumed run' snapshot' used _ => run' = run ∧ snapshot' = snapshot ∧ used = true
  | _ => False

/-- What an evaluation makes of how far its script came. -/
def conclusion (config : RunnerConfig) : Progress → Outcome
  | .ended outcome => outcome
  | .stalled _ => .error (outOfTime config)

theorem closing_of_say {run snapshot : Nat} {h : Host} {r : Record} :
    ∀ e ∈ sayEntries h r, Closing run snapshot e := by
  intro e member
  unfold sayEntries at member
  split at member
  · cases List.mem_singleton.mp member
    trivial
  · cases member

theorem settle_cases (r : Raised) : ∃ r', settle r = pure r' ∨
    ∃ noted, settle r = do
      say noted
      return r' := by
  unfold settle
  split
  · exact ⟨_, .inl rfl⟩
  · exact ⟨_, .inl rfl⟩
  · exact ⟨_, .inl rfl⟩
  · exact ⟨_, .inl rfl⟩
  · refine ⟨reportedFailure r, ?_⟩
    dsimp only
    split
    · exact .inr ⟨_, rfl⟩
    · exact .inl rfl

theorem settle_apply (r : Raised) (run snapshot : Nat) (h : Host) :
    ∃ r' closing, settle r h = some (.ok r', { h with journal := closing ++ h.journal }) ∧
      ∀ e ∈ closing, Closing run snapshot e := by
  obtain ⟨r', quiet | ⟨noted, noting⟩⟩ := settle_cases r
  · refine ⟨r', [], by rw [quiet]; rfl, ?_⟩
    rintro e ⟨⟩
  · refine ⟨r', sayEntries h noted, ?_, closing_of_say⟩
    rw [noting]
    exact bind_of_ok (say_apply noted h)

theorem print_apply (site : Site) (text : String) (h : Host) :
    ∃ h', print site text h = some (.ok (), h') ∧ h'.listeners = h.listeners := by
  unfold print Site.output
  by_cases taken : (site.config.printing.isTrue &&
      !(Text.trimRight (· == '\n') text.toList).isEmpty) = true
  · by_cases echoing : site.config.echoing.isTrue = true
    · simp only [if_pos taken, if_pos echoing, bind_of_ok (say_apply _ h)]
      exact ⟨_, record_apply _ _, rfl⟩
    · simp only [if_pos taken, if_neg echoing, bind_of_ok (say_apply _ h)]
      exact ⟨_, rfl, rfl⟩
  · simp only [if_neg taken]
    exact ⟨h, rfl, rfl⟩

section Loop

variable {calm : List (ListenerId × Listener) → Prop} {invoke : Invocation} {table : Table}

theorem driveBy_raises (invoke : Invocation) (site : Site) (table : Table) (k : Nat)
    (after : Bool) (r : Raised) (h : Host) :
    ∃ r' closing, driveBy invoke site table k after (.raises r) h =
        some (.ok (.ended (.error r')), { h with journal := closing ++ h.journal }) ∧
      ∀ e ∈ closing, Closing site.run k e := by
  unfold driveBy
  cases after with
  | false =>
    obtain ⟨r', closing, settled, logs⟩ := settle_apply r site.run k h
    exact ⟨r', closing, bind_of_ok settled, logs⟩
  | true =>
    refine ⟨reportedFailure alreadyResumed,
      refusalEntries { h with journal := .resumed site.run k true (.error r) :: h.journal } ++
        [.resumed site.run k true (.error r)], ?_, ?_⟩
    · refine (bind_of_ok (record_apply _ h)).trans ?_
      refine (bind_of_ok (settle_alreadyResumed _)).trans ?_
      rw [List.append_assoc]
      rfl
    · intro e member
      rcases List.mem_append.mp member with logged | attempt
      · exact closing_of_say e logged
      · cases List.mem_singleton.mp attempt
        exact ⟨rfl, rfl, rfl⟩

/-- The loop takes a script from round to round up to a point where it yields no call. -/
theorem driveBy_course (site : Site) (returning : Returning calm invoke table) (b : Behaviour) :
    ∀ k after h, calm h.listeners → ∃ rounds rest h₁ progress closing,
      driveBy invoke site table k after b h =
        some (.ok progress, { h₁ with journal := closing ++ h₁.journal }) ∧
      Course invoke site table k b h rounds rest h₁ ∧
      Concludes site.config rest (conclusion site.config progress) ∧
      ∀ e ∈ closing, Closing site.run (k + rounds.length) e := by
  induction b with
  | returns v =>
    intro k after h _
    refine ⟨[], _, h, .ended (.ok v), [], rfl, .stays, rfl, ?_⟩
    rintro e ⟨⟩
  | raises r =>
    intro k after h _
    obtain ⟨r', closing, ended, logs⟩ := driveBy_raises invoke site table k after r h
    exact ⟨[], _, h, _, closing, ended, .stays, ⟨r', rfl⟩, logs⟩
  | strays =>
    intro k after h _
    refine ⟨[], _, h, _, [], rfl, .stays, rfl, ?_⟩
    rintro e ⟨⟩
  | blocks next _ =>
    intro k after h _
    refine ⟨[], _, h, .stalled next, [], rfl, .stays, rfl, ?_⟩
    rintro e ⟨⟩
  | prints text next ih =>
    intro k after h listening
    obtain ⟨h₀, printed, same⟩ := print_apply site text h
    obtain ⟨rounds, rest, h₁, progress, closing, driven, course, concludes, logs⟩ :=
      ih k after h₀ (same ▸ listening)
    exact ⟨rounds, rest, h₁, progress, closing, (bind_of_ok printed).trans driven,
      .prints printed course, concludes, logs⟩
  | calls name args kwargs next ih =>
    intro k after h listening
    obtain ⟨⟨_, invoked⟩, h₀, rfl, made, listening, turned⟩ :=
      driveBy_calls site returning k after ⟨name, args, kwargs⟩ next listening
    obtain ⟨rounds, rest, h₁, progress, closing, driven, course, concludes, logs⟩ :=
      ih _ (k + 1) _ h₀ listening
    refine ⟨_ :: rounds, rest, h₁, progress, closing, turned.trans driven, .calls made course,
      concludes, ?_⟩
    rw [List.length_cons, Nat.add_comm rounds.length 1, ← Nat.add_assoc]
    exact logs

/-- An evaluation is over when its loop is. -/
theorem evaluateBy_of_driven {site : Site} {globals : Table} {b : Behaviour} {progress : Progress}
    {snapshot : Nat} {h h₁ : Host} {closing : List Entry}
    (driven : driveBy invoke site (implementations globals) 0 false b (begun site globals h) =
      some (.ok progress, { h₁ with journal := closing ++ h₁.journal }))
    (closes : ∀ e ∈ closing, Closing site.run snapshot e) :
    ∃ closing, evaluateBy invoke site globals b h =
        some (.ok (conclusion site.config progress),
          { h₁ with journal := closing ++ h₁.journal }) ∧
      ∀ e ∈ closing, Closing site.run snapshot e := by
  unfold evaluateBy
  rw [bind_of_ok (begin_apply site globals h), bind_of_ok driven]
  cases progress with
  | ended outcome => exact ⟨closing, rfl, closes⟩
  | stalled next =>
    refine ⟨sayEntries h₁ (outOfTimeRecord .monty site.config) ++ closing, ?_, ?_⟩
    · rw [List.append_assoc]
      exact bind_of_ok (say_apply _ _)
    · intro e member
      rcases List.mem_append.mp member with logged | earlier
      · exact closing_of_say e logged
      · exact closes e earlier

/-- An evaluation whose functions all come back, whatever they do. Its loop makes one round for
each snapshot that the interpreter yields: the functions invoked are those that the snapshots name
and the table knows, once each, in that order and with those arguments, and a snapshot is resumed
with what came of its own call. The loop ends where no further call is yielded, and invokes nothing
from there on; an unexpected progress object is an error of scripting. -/
theorem evaluateBy_rounds {site : Site} {globals : Table}
    (returning : Returning calm invoke (implementations globals)) (b : Behaviour) {h : Host}
    (listening : calm h.listeners) :
    evaluateBy site.invoke site globals b = evaluateAwaited site globals (.readable b) ∧
      ∃ rounds rest h₁ outcome closing,
        evaluateBy invoke site globals b h =
          some (.ok outcome, { h₁ with journal := closing ++ h₁.journal }) ∧
        Course invoke site (implementations globals) 0 b (begun site globals h) rounds rest h₁ ∧
        Yields b (rounds.map fun r => (r.snapshot, r.given)) rest ∧
        rounds.filterMap Round.invocation? =
          (rounds.map Round.snapshot).filterMap
            (Snapshot.invocation? (implementations globals)) ∧
        Concludes site.config rest outcome ∧
        ∀ e ∈ closing, Closing site.run rounds.length e := by
  refine ⟨evaluateBy_invoke site globals b, ?_⟩
  obtain ⟨rounds, rest, h₁, progress, closing, driven, course, concludes, closes⟩ :=
    driveBy_course site returning b 0 false (begun site globals h) listening
  rw [Nat.zero_add] at closes
  obtain ⟨closing, evaluated, closes⟩ := evaluateBy_of_driven driven closes
  exact ⟨rounds, rest, h₁, _, closing, evaluated, course, course.yields, course.invocations,
    concludes, closes⟩

end Loop

/-- A script that calls a function whose result cannot be converted, a name that nobody knows, and
a function that echoes, and then yields something that is no call. -/
def straying : Behaviour :=
  .calls "handle" [] [] fun _ => .calls "missing" [.int 1] [] fun _ =>
    .calls "echo" [.int 2] [] fun _ => .strays

theorem straying_yields {config : RunnerConfig} {yielded : List (Snapshot × Outcome)}
    {rest : Behaviour} {outcome : Outcome} (yields : Yields straying yielded rest)
    (concludes : Concludes config rest outcome) :
    rest = .strays ∧ yielded.map Prod.fst =
      [⟨"handle", [], []⟩, ⟨"missing", [.int 1], []⟩, ⟨"echo", [.int 2], []⟩] := by
  cases yields with
  | stays => cases concludes
  | calls later =>
    cases later with
    | stays => cases concludes
    | calls later =>
      cases later with
      | stays => cases concludes
      | calls later =>
        cases later
        exact ⟨rfl, rfl⟩

/-- The two functions are invoked once each, although three snapshots are resumed four times. -/
theorem evaluateBy_rounds_straying :
    ∃ (rounds : List Round) (h' : Host),
      evaluateAwaited ⟨0, .initial, fun _ _ => pure ()⟩
          [("echo", .function .echo true), ("handle", .function .object false)]
          (.readable straying) (Host.ofStore default) =
        some (.ok (.error ⟨.failed .unexpectedProgress, none⟩), h') ∧
      (Fault.failed .unexpectedProgress).className = "ScriptExecutionError" ∧
      rounds.map Round.snapshot = [⟨"handle", [], []⟩, ⟨"missing", [.int 1], []⟩,
        ⟨"echo", [.int 2], []⟩] ∧
      rounds.filterMap Round.invocation? = [(.object, [], []), (.echo, [.int 2], [])] := by
  let site : Site := ⟨0, .initial, fun _ _ => pure ()⟩
  let globals : Table := [("echo", .function .echo true), ("handle", .function .object false)]
  have returning : Returning (fun _ => True) site.invoke (implementations globals) := by
    refine ⟨fun _ f _ _ args kwargs => ?_, fun name found => ?_⟩
    · exact (site.invoke_composed f args kwargs).ends
        (Site.Service.ends fun _ _ => Act.Ends.pure ())
    · obtain ⟨before, after, whole, -⟩ := List.lookup_eq_some_iff.mp found
      have member : (name, .function .forever true) ∈ implementations globals :=
        whole ▸ List.mem_append_right _ List.mem_cons_self
      simp [implementations, functions, globals, helpers, Table.update, Table.put,
        Binding.isFunction] at member
  obtain ⟨same, rounds, rest, h₁, outcome, closing, evaluated, -, yields, invocations,
    concludes, -⟩ := evaluateBy_rounds returning straying (h := Host.ofStore default) trivial
  obtain ⟨rfl, yielded⟩ := straying_yields yields concludes
  rw [List.map_map] at yielded
  have snapshots : rounds.map Round.snapshot = _ := yielded
  cases concludes
  rw [snapshots] at invocations
  exact ⟨rounds, _, same ▸ evaluated, rfl, snapshots, invocations⟩

end Monty

end OptionHost
