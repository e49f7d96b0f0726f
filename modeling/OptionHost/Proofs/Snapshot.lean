import Mathlib.Logic.Relation
import OptionHost.Proofs.Act

/-!
# Snapshots and reported errors

A script that runs on snapshots goes from halt to halt: what its calls were answered with so far
decides where it stands. When the interpreter dies of an error of its own, what the evaluation
reports depends on that history in one respect only, whether the last call was answered with a
value: then the snapshot of that call is resumed a second time, and the refusal of the second
attempt takes the place of the error.
-/

namespace OptionHost.Monty

open Relation (ReflTransGen)
open Act

/-! ## The course of a script -/

/-- Where a script stands: what its calls were answered with, the latest first, what is left of
it, and the host. -/
structure Point where
  given : List Outcome
  rest : Behaviour
  host : Host

def afterValue : List Outcome → Bool
  | [] => false
  | outcome :: _ => outcome.isOk

/-- One step of a script: a text printed, or a call answered on a snapshot not used before. -/
inductive Step (site : Site) (table : Table) : Point → Point → Prop where
  | prints {given : List Outcome} {text : String} {next : Behaviour} {h h' : Host}
      (printed : print site text h = some (.ok (), h')) :
      Step site table ⟨given, .prints text next, h⟩ ⟨given, next, h'⟩
  | calls {given : List Outcome} {name : String} {args : List Value} {kwargs : Entries}
      {next : Outcome → Behaviour} {h h' : Host} {outcome : Outcome}
      (answered : answer site table (given.length + 1) name args kwargs h =
        some (.ok (some outcome), h')) :
      Step site table ⟨given, .calls name args kwargs next, h⟩
        ⟨outcome :: given, next outcome,
          { h' with journal := .called site.run name outcome :: h'.journal }⟩

/-- What the engine makes of a script from a point on. -/
def Point.driven (site : Site) (table : Table) (p : Point) :
    Option (Except Raised Progress × Host) :=
  drive site table p.given.length (afterValue p.given) p.rest p.host

/-- A call that was answered, and what the engine does next. -/
theorem drive_calls_of_answer {site : Site} {table : Table} {snapshots : Nat} {after : Bool}
    {name : String} {args : List Value} {kwargs : Entries} {next : Outcome → Behaviour}
    {h h' : Host} {outcome : Outcome}
    (answered : answer site table (snapshots + 1) name args kwargs h =
      some (.ok (some outcome), h')) :
    drive site table snapshots after (.calls name args kwargs next) h =
      drive site table (snapshots + 1) outcome.isOk (next outcome)
        { h' with journal := .called site.run name outcome :: h'.journal } := by
  conv => lhs; unfold drive
  rw [bind_of_ok answered]
  exact bind_of_ok (record_apply _ _)

theorem Step.driven {site : Site} {table : Table} {p q : Point} (step : Step site table p q) :
    p.driven site table = q.driven site table := by
  cases step with
  | prints printed => exact bind_of_ok printed
  | calls answered => exact drive_calls_of_answer answered

/-- The engine is indifferent to where on its course a script is met. -/
theorem driven_of_steps {site : Site} {table : Table} {p q : Point}
    (steps : ReflTransGen (Step site table) p q) : p.driven site table = q.driven site table := by
  induction steps with
  | refl => rfl
  | tail _ step ih => exact ih.trans step.driven

/-- What the interpreter is told before a script starts, the latest first. -/
def setups (site : Site) (globals : Table) : List Setup :=
  [.started (inputs globals) (limits site.config) site.config.printing.isTrue,
    .declared (inputs globals).names (external globals)]

def begun (site : Site) (globals : Table) (h : Host) : Host :=
  { h with journal := (setups site globals).map (.prepared site.run) ++ h.journal }

theorem begin_apply (site : Site) (globals : Table) (h : Host) :
    begin site globals h = some (.ok (), begun site globals h) := rfl

/-! ## Errors of the interpreter -/

inductive ErrorClass where
  | general
  | atRuntime
  | ofReading
  deriving DecidableEq, Repr

def ErrorClass.name : ErrorClass → String
  | .general => "MontyError"
  | .atRuntime => "MontyRuntimeError"
  | .ofReading => "MontySyntaxError"

def ErrorClass.fault (c : ErrorClass) (text : String) : Fault := .foreign c.name text

/-- The class of the report that an error of the interpreter calls for, and its message. -/
def ErrorClass.reportClass : ErrorClass → String
  | .ofReading => "ScriptSyntaxError"
  | _ => "ScriptExecutionError"

def ErrorClass.reportText (c : ErrorClass) (text : String) : String :=
  match c with
  | .ofReading => text
  | _ => "Script execution failed: " ++ text

/-- An outcome that reports an error of the interpreter by its own text and as its cause. -/
def Reports (c : ErrorClass) (text : String) (outcome : Outcome) : Prop :=
  ∃ r, outcome = .error r ∧ r.fault.className = c.reportClass ∧
    r.fault.message? = some (c.reportText text) ∧ r.cause = some (c.fault text)

/-- An error whose text states no line whose number is too long to be read, if it matters. -/
def Legible (c : ErrorClass) (text : String) : Prop :=
  c = .ofReading → ∀ digits, statedLine? text.toList = some digits → digits.length ≤ digitLimit

/-- The interpreter meets an error: while it is constructed, or at the end of a course that
begins with the start of the script. -/
inductive Meets (site : Site) (globals : Table) (h : Host) :
    Source → Raised → List Outcome → Host → Prop where
  | constructing (message : String) :
      Meets site globals h (.unreadable message) ⟨ErrorClass.ofReading.fault message, none⟩ [] h
  | running {b : Behaviour} {m : Raised} {given : List Outcome} {h' : Host}
      (steps : ReflTransGen (Step site (implementations globals))
        ⟨[], b, begun site globals h⟩ ⟨given, .raises m, h'⟩) :
      Meets site globals h (.readable b) m given h'

theorem unreadable_of_short {text : String} {digits : List Nat}
    (stated : statedLine? text.toList = some digits) (short : digits.length ≤ digitLimit) :
    unreadable "MontySyntaxError" text =
      ⟨.malformed text (.int (Text.digitsValue 10 digits)) .null,
        some (.foreign "MontySyntaxError" text)⟩ := by
  unfold unreadable
  simp only [stated]
  exact if_neg (Nat.not_lt.mpr short)

theorem unreadable_of_long {text : String} {digits : List Nat}
    (stated : statedLine? text.toList = some digits) (long : digitLimit < digits.length) :
    unreadable "MontySyntaxError" text = ⟨.wrongValue (.tooManyDigits digits.length), none⟩ := by
  unfold unreadable
  simp only [stated]
  exact if_pos long

theorem reports_unreadable_iff (text : String) :
    Reports .ofReading text (.error (unreadable "MontySyntaxError" text)) ↔
      Legible .ofReading text := by
  constructor
  · rintro ⟨r, e, className, _⟩ _ digits stated
    cases e
    rcases Nat.lt_or_ge digitLimit digits.length with long | short
    · rw [unreadable_of_long stated long] at className
      change "ValueError" = "ScriptSyntaxError" at className
      exact absurd className (by decide)
    · exact short
  · intro legible
    cases stated : statedLine? text.toList with
    | none =>
      unfold unreadable
      rw [stated]
      exact ⟨_, rfl, rfl, rfl, rfl⟩
    | some digits =>
      rw [unreadable_of_short stated (legible rfl digits stated)]
      exact ⟨_, rfl, rfl, rfl, rfl⟩

/-- What becomes of an error that is met where no value was answered last. -/
theorem settle_own (c : ErrorClass) (text : String) (cause : Option Fault) (h : Host) :
    ∃ r, settle ⟨c.fault text, cause⟩ h = some (.ok r, h) ∧
      (Reports c text (.error r) ↔ Legible c text) := by
  cases c with
  | ofReading =>
    exact ⟨unreadable "MontySyntaxError" text, rfl, reports_unreadable_iff text⟩
  | general =>
    refine ⟨reportedFailure ⟨.foreign "MontyError" text, cause⟩, rfl, ?_, ?_⟩
    · rintro _ ⟨⟩
    · exact fun _ => ⟨_, rfl, rfl, rfl, rfl⟩
  | atRuntime =>
    refine ⟨reportedFailure ⟨.foreign "MontyRuntimeError" text, cause⟩, rfl, ?_, ?_⟩
    · rintro _ ⟨⟩
    · exact fun _ => ⟨_, rfl, rfl, rfl, rfl⟩

/-! ## What an evaluation reports -/

/-- A refused second attempt is reported by its own text, whatever the first one died of. -/
theorem not_reports_alreadyResumed (c : ErrorClass) (text : String) :
    ¬Reports c text (.error (reportedFailure alreadyResumed)) := by
  rintro ⟨r, e, _, _, cause⟩
  cases e
  have names : "RuntimeError" = c.name := (Fault.foreign.inj (Option.some.inj cause)).1
  cases c with
  | general => exact absurd names (by decide)
  | atRuntime => exact absurd names (by decide)
  | ofReading => exact absurd names (by decide)

/-- What is written to the journal when a second attempt is refused. -/
def refusalEntries (h : Host) : List Entry :=
  sayEntries h (failureRecord .monty alreadyResumed)

theorem settle_alreadyResumed (h : Host) :
    settle alreadyResumed h =
      some (.ok (reportedFailure alreadyResumed),
        { h with journal := refusalEntries h ++ h.journal }) :=
  bind_of_ok (say_apply _ h)

/-- The end of an evaluation whose script died of an error right after a value. -/
theorem drive_raises_afterValue (site : Site) (table : Table) (snapshots : Nat) (m : Raised)
    (h : Host) :
    drive site table snapshots true (.raises m) h =
      some (.ok (.ended (.error (reportedFailure alreadyResumed))),
        { h with journal :=
          refusalEntries h ++ .resumed site.run snapshots true (.error m) :: h.journal }) := by
  unfold drive
  rw [if_pos rfl, resume, bind_of_ok (record_apply _ _), bind_of_ok (settle_alreadyResumed _)]
  rfl

/-- The end of an evaluation whose script died of an error otherwise. -/
theorem drive_raises {site : Site} {table : Table} {snapshots : Nat} {m r : Raised}
    {h h' : Host} (settled : settle m h = some (.ok r, h')) :
    drive site table snapshots false (.raises m) h = some (.ok (.ended (.error r)), h') := by
  unfold drive
  rw [if_neg Bool.false_ne_true, bind_of_ok settled]
  rfl

theorem evaluateAwaited_of_ended {site : Site} {globals : Table} {b : Behaviour}
    {outcome : Outcome} {h h' : Host}
    (ended : Point.driven site (implementations globals) ⟨[], b, begun site globals h⟩ =
      some (.ok (.ended outcome), h')) :
    evaluateAwaited site globals (.readable b) h = some (.ok outcome, h') := by
  unfold evaluateAwaited
  dsimp only
  rw [bind_of_ok (begin_apply site globals h)]
  exact bind_of_ok ended

/-- An evaluation whose interpreter meets an error of its own has a result. It reports the error
if and only if the last call of the script was not answered with a value, save for an unreadable
text that states a line too long to be read. A script that died right after a value has its last
snapshot resumed a second time, and the refusal of that attempt is what the evaluation reports;
otherwise no snapshot is resumed again. -/
theorem evaluateAwaited_reports_iff {site : Site} {globals : Table} {h h₁ : Host}
    {source : Source} {c : ErrorClass} {text : String} {cause : Option Fault}
    {given : List Outcome}
    (met : Meets site globals h source ⟨c.fault text, cause⟩ given h₁) :
    ∃ outcome ending h₂, evaluateAwaited site globals source h = some (.ok outcome, h₂) ∧
      h₂ = { h₁ with journal := ending ++ h₁.journal } ∧
      (Reports c text outcome ↔ afterValue given = false ∧ Legible c text) ∧
      (afterValue given = true → outcome = .error (reportedFailure alreadyResumed)) ∧
      ((∃ snapshot attempt, .resumed site.run snapshot true attempt ∈ ending) ↔
        afterValue given = true) := by
  obtain ⟨r, settled, reports⟩ := settle_own c text cause h₁
  -- An end that follows no value leaves the host as it is.
  have quiet (evaluated : evaluateAwaited site globals source h = some (.ok (.error r), h₁))
      (after : afterValue given = false) :
      ∃ outcome ending h₂, evaluateAwaited site globals source h = some (.ok outcome, h₂) ∧
        h₂ = { h₁ with journal := ending ++ h₁.journal } ∧
        (Reports c text outcome ↔ afterValue given = false ∧ Legible c text) ∧
        (afterValue given = true → outcome = .error (reportedFailure alreadyResumed)) ∧
        ((∃ snapshot attempt, .resumed site.run snapshot true attempt ∈ ending) ↔
          afterValue given = true) := by
    refine ⟨.error r, [], h₁, evaluated, rfl, ?_, ?_, ?_⟩
    · exact reports.trans (and_iff_right after).symm
    · intro value
      exact absurd (value.symm.trans after) (by decide)
    · constructor
      · rintro ⟨snapshot, attempt, impossible⟩
        cases impossible
      · intro value
        exact absurd (value.symm.trans after) (by decide)
  generalize met_error : (⟨c.fault text, cause⟩ : Raised) = m at met settled
  cases met with
  | constructing message =>
    cases settled
    exact quiet rfl rfl
  | running steps =>
    have course := driven_of_steps steps
    unfold Point.driven at course
    cases after : afterValue given with
    | false =>
      rw [after, drive_raises settled] at course
      exact after ▸ quiet (evaluateAwaited_of_ended course) after
    | true =>
      rw [after, drive_raises_afterValue] at course
      refine ⟨_, refusalEntries h₁ ++ [.resumed site.run given.length true (.error m)], _,
        evaluateAwaited_of_ended course, ?_, ?_, ?_, ?_⟩
      · rw [List.append_assoc]
        rfl
      · constructor
        · exact fun reported => absurd reported (not_reports_alreadyResumed c text)
        · rintro ⟨impossible, _⟩
          cases impossible
      · exact fun _ => rfl
      · constructor
        · exact fun _ => rfl
        · exact fun _ => ⟨_, _, List.mem_append_right _ List.mem_cons_self⟩

/-- A script that calls a function with success and then divides by zero. -/
theorem evaluateAwaited_reports_iff_echo :
    ∃ outcome h₂,
      evaluateAwaited ⟨0, .initial, fun _ _ => pure ()⟩ [("echo", .function .echo false)]
          (.readable (.calls "echo" [] [] fun _ =>
            .raises ⟨ErrorClass.atRuntime.fault "division by zero", none⟩))
          (Host.ofStore default) = some (.ok outcome, h₂) ∧
        ¬Reports .atRuntime "division by zero" outcome ∧
        outcome = .error (reportedFailure alreadyResumed) := by
  have met : Meets ⟨0, .initial, fun _ _ => pure ()⟩ [("echo", .function .echo false)]
      (Host.ofStore default)
      (.readable (.calls "echo" [] [] fun _ =>
        .raises ⟨ErrorClass.atRuntime.fault "division by zero", none⟩))
      ⟨ErrorClass.atRuntime.fault "division by zero", none⟩
      [.ok (.list [.list [], .dict []])] _ :=
    .running (.single (.calls rfl))
  obtain ⟨outcome, _, h₂, evaluated, _, reports, refused, _⟩ := evaluateAwaited_reports_iff met
  refine ⟨outcome, h₂, evaluated, ?_, refused rfl⟩
  exact fun reported => absurd (reports.mp reported).1 (by decide)

end OptionHost.Monty
