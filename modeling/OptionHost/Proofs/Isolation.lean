import OptionHost.Proofs.TimelyFaults
import OptionHost.Proofs.Turns

/-!
# Evaluations that do not get in each other's way

Whatever the order of their turns, an evaluation is blamed for the failures of its own calls only,
its accessors work until it ends itself, and its calls do to the store what the same calls do when
they are made directly on the bridge, with no evaluation to book them.
-/

namespace OptionHost

open Act

/-! ## Who is to blame -/

theorem Turn.ends_blames {depth run : Nat} {h h' : Host} {outcome : Outcome} {r : Raised}
    (booked : h.Booked) (took : (ends run outcome).take depth h = some (.error r, h'))
    (wrapped : Wrapped outcome) (option : r.fault.isOptionError = true) :
    ∃ e r₀ a, outcome = .error e ∧ r = r₀.because e.fault ∧
      Entry.accessed run a (.error r₀) ∈ h.journal := by
  obtain ⟨reported, -⟩ := ends_cases took
  cases outcome with
  | ok v => cases reported
  | error e =>
    have other : r ≠ e := by
      rintro rfl
      rw [wrapped r rfl] at option
      cases option
    unfold Runner.report at reported
    dsimp only at reported
    -- What is raised in place of the engine's error is the last failure that the books have.
    split at reported
    · cases found : h.evaluations[run]? with
      | none =>
        rw [found] at reported
        exact absurd (Except.error.inj reported) other
      | some open_ =>
        rw [found, Option.getD_some, booked.failures run open_ found] at reported
        cases rejections : h.rejections run with
        | nil =>
          rw [rejections] at reported
          exact absurd (Except.error.inj reported) other
        | cons r₀ earlier =>
          rw [rejections] at reported
          have member : r₀ ∈ h.rejections run := rejections ▸ List.mem_cons_self
          obtain ⟨a, made⟩ := Host.accessed_of_rejections member
          exact ⟨e, r₀, a, rfl, Except.error.inj reported, made⟩
    · exact absurd (Except.error.inj reported) other

/-! ## How long accessors work -/

theorem Turn.calls_timely {depth run bridge : Nat} {a : Accessor} {args : List Value}
    {kwargs : Entries} {h h' : Host} {r : Raised} (runs : h.Runs run bridge)
    (took : (calls run a args kwargs).take depth h = some (.error r, h')) :
    r.fault.isLate = false := by
  obtain ⟨h₁, accessed, -⟩ := accessWithin_cases runs took
  exact access_timely bridge a args kwargs accessed

theorem Turns.calls_timely {depth run bridge : Nat} {ts : List (Turn × Outcome)} {h h' : Host}
    (turns : Turns (Turn.take depth) h ts h') (runs : h.Runs run bridge)
    (unended : ∀ outcome out, (Turn.ends run outcome, out) ∉ ts) {a : Accessor}
    {args : List Value} {kwargs : Entries} {r : Raised}
    (called : (Turn.calls run a args kwargs, .error r) ∈ ts) : r.fault.isLate = false := by
  obtain ⟨before, after, rfl⟩ := List.append_of_mem called
  obtain ⟨h₁, earlier, later⟩ := turns.split
  have still : h₁.Runs run bridge :=
    earlier.runs runs fun outcome out mem => unended outcome out (List.mem_append_left _ mem)
  cases later with
  | taken took _ => exact Turn.calls_timely still took

/-! ## Calls made directly -/

/-- An entry about the store, or about a listener that was told of a change. -/
def Entry.isOfStore : Entry → Bool
  | .stored .. | .notified .. => true
  | _ => false

/-- The store went through the same, and the same listeners heard of it. -/
def SameEvents (j k : List Entry) : Prop := j.filter Entry.isOfStore = k.filter Entry.isOfStore

instance : Cumulative SameEvents where
  cons e _ _ same := by
    unfold SameEvents at same ⊢
    rw [List.filter_cons, List.filter_cons, same]

theorem SameEvents.cons_left {j k : List Entry} {e : Entry} (same : SameEvents j k)
    (other : e.isOfStore = false) : SameEvents (e :: j) k := by
  unfold SameEvents at same ⊢
  rw [List.filter_cons_of_neg (by simp [other]), same]

theorem Entry.isOfStore_of_isQuiet {e : Entry} (quiet : e.isQuiet = true) :
    e.isOfStore = false := by
  cases e with
  | stored t write => cases quiet
  | notified id change => cases quiet
  | _ => rfl

/-- The turn without its books: a call is one of the bridge while the evaluation is under way,
nothing is noted for the evaluation, and its end reports nothing. -/
def Turn.directly (depth : Nat) : Turn → Act Value
  | .calls run a args kwargs => do
    let e ← evaluation run
    if e.finished then fail (.hostState (.abandoned a.name))
    else access (Session.respond depth) e.bridge a args kwargs
  | .notes _ _ => return .null
  | .ends run _ => do
    finishEvaluation run
    return .null
  | t => t.take depth

theorem Evaluation.Alike.booked {apart : Nat → Prop} {es fs : List Evaluation}
    (alike : Alike apart es fs) {run : Nat} (isApart : apart run) (outcome : Outcome) :
    Alike apart (es.modify run (·.after outcome)) fs := by
  refine ⟨by simp [alike.length], ?_, ?_, ?_, ?_⟩
  · intro id other
    rw [List.length_modify]
    exact alike.opened id other
  · intro id
    rw [List.getElem?_modify, Option.map_eq_map, ← alike.bridge id, Option.map_map]
    congr 1
    funext e
    dsimp only [Function.comp]
    split
    · exact e.after_bridge outcome
    · rfl
  · intro id
    rw [List.getElem?_modify, Option.map_eq_map, ← alike.finished id, Option.map_map]
    congr 1
    funext e
    dsimp only [Function.comp]
    split
    · exact e.after_finished outcome
    · rfl
  · intro id notApart
    have other : run ≠ id := by
      rintro rfl
      exact notApart isApart
    simpa [List.getElem?_modify, other] using alike.same id notApart

theorem Evaluation.Alike.mono {apart apart' : Nat → Prop} {es fs : List Evaluation}
    (alike : Alike apart es fs) (more : ∀ id, apart id → apart' id)
    (opened : ∀ id, apart' id → id < es.length) : Alike apart' es fs :=
  ⟨alike.length, opened, alike.bridge, alike.finished,
    fun id notApart => alike.same id fun isApart => notApart (more id isApart)⟩

/-- Hosts that differ in nothing but the books on their evaluations. -/
def Host.Beside (h g : Host) : Prop := h.InStep SameEvents (· < h.evaluations.length) g

namespace Host.Beside

variable {h g h' g' : Host}

theorem refl (h : Host) : h.Beside h :=
  .beside ⟨rfl, fun _ opened => opened, fun _ => rfl, fun _ => rfl, fun _ _ => rfl⟩ rfl

theorem of_inStep (inStep : h'.InStep SameEvents (· < h.evaluations.length) g')
    (grown : h.evaluations.length ≤ h'.evaluations.length) : h'.Beside g' := by
  obtain ⟨evaluations, journal⟩ := inStep
  -- What was opened in the meantime has the same books so far, and need not from here on.
  refine .beside (evaluations.mono ?_ ?_) journal
  · intro id opened
    exact Nat.lt_of_lt_of_le opened grown
  · intro id opened
    exact opened

theorem of_lockstep {act : Act Value} {out : Outcome} (beside : h.Beside g)
    (lockstep : act.Lockstep SameEvents (· < h.evaluations.length))
    (e : act h = some (out, h')) (path : h.Path h') :
    ∃ g', act g = some (out, g') ∧ h'.Beside g' := by
  obtain ⟨g', went, inStep⟩ := lockstep beside e
  exact ⟨g', went, of_inStep inStep path.evaluations_le⟩

end Host.Beside

namespace Turn

theorem enter_lockstep {Q : List Entry → List Entry → Prop} {apart : Nat → Prop} (id : Nat) :
    (enter id).Lockstep Q apart := by
  refine Lockstep.bind (Runner.at?_lockstep id) fun found => ?_
  cases found with
  | none => exact Lockstep.fail _
  | some runner =>
    refine Lockstep.bind (Lockstep.of_modify fun inStep => ?_) fun _ => Lockstep.pure _
    exact Runner.entered_inStep runner inStep

variable {depth run : Nat} {h h' g : Host} {out : Outcome}

theorem calls_directly {a : Accessor} {args : List Value} {kwargs : Entries} (beside : h.Beside g)
    (took : (calls run a args kwargs).take depth h = some (out, h')) :
    ∃ g', (calls run a args kwargs).directly depth g = some (out, g') ∧ h'.Beside g' := by
  have path := take_path took
  have alike : ((g.evaluations[run]?).getD ⟨0, true, []⟩).bridge =
        ((h.evaluations[run]?).getD ⟨0, true, []⟩).bridge ∧
      ((g.evaluations[run]?).getD ⟨0, true, []⟩).finished =
        ((h.evaluations[run]?).getD ⟨0, true, []⟩).finished := by
    obtain ⟨evaluations, -⟩ := beside
    obtain ⟨bridge, finished⟩ := evaluations.getD run
    exact ⟨bridge.symm, finished.symm⟩
  have asked : (calls run a args kwargs).directly depth g =
      (if ((g.evaluations[run]?).getD ⟨0, true, []⟩).finished then
        fail (.hostState (.abandoned a.name))
      else access (Session.respond depth) ((g.evaluations[run]?).getD ⟨0, true, []⟩).bridge
        a args kwargs) g := rfl
  rw [asked, alike.1, alike.2]
  obtain ⟨ended, rfl, rfl⟩ | ⟨bridge, runs⟩ := runs_of_accessWithin took
  · rw [if_pos ended]
    exact ⟨g, rfl, beside⟩
  · obtain ⟨h₁, accessed, rfl⟩ := accessWithin_cases runs took
    obtain ⟨open_, found, rfl, underWay⟩ := runs
    rw [found, Option.getD_some, underWay]
    obtain ⟨g₁, went, inStep⟩ :=
      access_lockstep (Session.respond_lockstep depth) open_.bridge a args kwargs beside accessed
    refine ⟨g₁, went, Host.Beside.of_inStep ?_ path.evaluations_le⟩
    obtain ⟨evaluations, journal⟩ := inStep
    refine .beside (evaluations.booked ?_ out) (journal.cons_left rfl)
    exact (List.getElem?_eq_some_iff.mp found).1

/-- Hosts that differ in their books on evaluations take a turn alike, whether or not it is booked;
only what the end of an evaluation reports is not asked for. -/
theorem take_directly {t : Turn} (beside : h.Beside g) (took : t.take depth h = some (out, h')) :
    ∃ out' g', t.directly depth g = some (out', g') ∧ (t.isEnd = false → out' = out) ∧
      h'.Beside g' := by
  have path := take_path took
  cases t with
  | opens id =>
    obtain ⟨g', went, after⟩ := beside.of_lockstep (enter_lockstep id) took path
    exact ⟨out, g', went, fun _ => rfl, after⟩
  | calls run a args kwargs =>
    obtain ⟨g', went, after⟩ := calls_directly beside took
    exact ⟨out, g', went, fun _ => rfl, after⟩
  | notes e quiet =>
    cases took
    obtain ⟨evaluations, journal⟩ := beside
    have unnoted := journal.cons_left (Entry.isOfStore_of_isQuiet quiet)
    exact ⟨_, _, rfl, fun _ => rfl, .beside evaluations unnoted⟩
  | ends run outcome =>
    obtain ⟨rfl, rfl⟩ := ends_cases took
    obtain ⟨g', went, inStep⟩ := finishEvaluation_lockstep run beside rfl
    refine ⟨.ok .null, g', bind_of_ok went, fun unended => (by cases unended), ?_⟩
    exact Host.Beside.of_inStep inStep path.evaluations_le
  | asks request =>
    have lockstep : ((asks request).take depth).Lockstep SameEvents (· < h.evaluations.length) :=
      Lockstep.bind (Session.perform_lockstep (Session.respond_lockstep depth) request) fun _ =>
        Lockstep.pure _
    obtain ⟨g', went, after⟩ := beside.of_lockstep lockstep took path
    exact ⟨out, g', went, fun _ => rfl, after⟩

end Turn

theorem Turns.directly {depth : Nat} {ts : List (Turn × Outcome)} {h h' g : Host}
    (turns : Turns (Turn.take depth) h ts h') (beside : h.Beside g) :
    ∃ us g', Turns (Turn.directly depth) g us g' ∧ us.map Prod.fst = ts.map Prod.fst ∧
      (us.filter fun p => !p.1.isEnd) = (ts.filter fun p => !p.1.isEnd) ∧ h'.Beside g' := by
  induction turns generalizing g with
  | done h => exact ⟨[], g, .done g, rfl, rfl, beside⟩
  | @taken t out ts h h₁ h' first _ ih =>
    obtain ⟨out', g₁, went, same, between⟩ := Turn.take_directly beside first
    obtain ⟨us, g', later, turns, outcomes, after⟩ := ih between
    refine ⟨(t, out') :: us, g', .taken went later, ?_, ?_, after⟩
    · rw [List.map_cons, List.map_cons, turns]
    · cases ended : t.isEnd with
      | true => simpa [ended] using outcomes
      | false =>
        rw [same ended]
        simpa [ended] using outcomes

/-! ## Isolation -/

/-- Evaluations that are open at a host at the same time, whatever the order of their turns. -/
structure Host.Isolates (depth : Nat) (h : Host) : Prop where
  opens : ∀ id v h₁, (Turn.opens id).take depth h = some (.ok v, h₁) →
    ∃ bridge, h₁.Runs h.evaluations.length bridge
  /-- An option error at the end of an evaluation is the failure of a call of its accessors, on
  account of what the engine reported. -/
  blames : ∀ before run outcome r after h',
    Turns (Turn.take depth) h (before ++ (.ends run outcome, .error r) :: after) h' →
      Wrapped outcome → r.fault.isOptionError = true →
        ∃ e r₀ a h₁, Turns (Turn.take depth) h before h₁ ∧ outcome = .error e ∧
          r = r₀.because e.fault ∧ Entry.accessed run a (.error r₀) ∈ h₁.journal
  /-- An evaluation that has not ended itself is under way, and so its accessors work. -/
  lasts : ∀ ts h' run bridge, Turns (Turn.take depth) h ts h' → h.Runs run bridge →
    (∀ outcome out, (.ends run outcome, out) ∉ ts) →
      h'.Runs run bridge ∧ ∀ a args kwargs r, (.calls run a args kwargs, .error r) ∈ ts →
        r.fault.isLate = false
  /-- The calls come to the same, and do the same to the store and to listeners, when they are made
  on the bridge in the order of the turns. -/
  directly : ∀ ts h', Turns (Turn.take depth) h ts h' →
    ∃ us g', Turns (Turn.directly depth) h us g' ∧ us.map Prod.fst = ts.map Prod.fst ∧
      (us.filter fun p => !p.1.isEnd) = (ts.filter fun p => !p.1.isEnd) ∧
      g'.store = h'.store ∧ g'.listeners = h'.listeners ∧ g'.bridges = h'.bridges ∧
      SameEvents h'.journal g'.journal
  /-- An evaluation that a runner carries out is refused, or it is a row of turns. -/
  evaluates : ∀ id job out h', Runner.evaluate (Session.respond depth) id job h = some (out, h') →
    (∃ r, out = .error r ∧ h' = h) ∨ ∃ runner ts outcome us, h.runners[id]? = some runner ∧
      Turns (Turn.take depth) h ((.opens id, .ok .null) ::
        (ts ++ (.ends h.evaluations.length outcome, out) :: us)) h' ∧
      (∀ p ∈ ts ++ us, p.1.isScripted = true) ∧
      (runner.interpreter ≠ .standIn → Wrapped outcome)

namespace Session

theorem evaluations_isolated {store : Store} {h : Host} (reached : (Host.ofStore store).Path h)
    (depth : Nat) : h.Isolates depth := by
  constructor
  · intro id v h₁ took
    obtain ⟨_, failed, -⟩ | ⟨runner, -, -, rfl⟩ := Turn.opens_cases took
    · cases failed
    · exact ⟨runner.bridge, Host.Runs.entered runner h⟩
  · intro before run outcome r after h' turns wrapped option
    obtain ⟨h₁, earlier, later⟩ := turns.split
    have booked := Host.Path.booked (reached.trans earlier.path) (.ofStore store)
    cases later with
    | taken took _ =>
      obtain ⟨e, r₀, a, died, raised, made⟩ := Turn.ends_blames booked took wrapped option
      exact ⟨e, r₀, a, h₁, earlier, died, raised, made⟩
  · intro ts h' run bridge turns runs unended
    refine ⟨turns.runs runs unended, ?_⟩
    intro a args kwargs r called
    exact turns.calls_timely runs unended called
  · intro ts h' turns
    obtain ⟨us, g', direct, same, outcomes, after⟩ := turns.directly (Host.Beside.refl h)
    obtain ⟨-, journal⟩ := after
    exact ⟨us, _, direct, same, outcomes, rfl, rfl, rfl, journal⟩
  · intro id job out h' e
    cases found : h.runners[id]? with
    | none =>
      rw [Runner.evaluate_of_not_found found] at e
      cases e
      exact .inl ⟨_, rfl, rfl⟩
    | some runner =>
      cases decision : Runner.refusal? runner job with
      | some fault =>
        rw [Runner.evaluate_of_refused found decision] at e
        cases e
        exact .inl ⟨_, rfl, rfl⟩
      | none =>
        obtain ⟨ts, outcome, us, turns⟩ := Runner.evaluate_turns found decision e
        exact .inr ⟨runner, ts, outcome, us, rfl, turns⟩

/-- A runner with two evaluations: a write of the first is rejected, the second one writes and is
given up, and the first one reads what the second one wrote. -/
def overlapping (rejection : Raised) : List (Turn × Outcome) :=
  [(.calls 0 (.setter .wrap) [.int 1] [], .error rejection),
    (.calls 1 (.setter .wrap) [.bool false] [], .ok .null),
    (.ends 1 (.error (outOfTime RunnerConfig.initial)),
      .error (outOfTime RunnerConfig.initial)),
    (.calls 0 (.getter .wrap) [] [], .ok (.bool false))]

/-- What the first one dies of in the end. -/
def diedLast : Raised := reportedFailure ⟨.foreign "StarlarkError" "boom", none⟩

theorem evaluations_isolated_overlapping :
    ∃ (h g h₁ h' g' : Host) (us : List (Turn × Outcome)) (rejection r e r₀ : Raised)
      (a : Accessor),
      Turns (Turn.take 1) h [(.opens 0, .ok .null), (.opens 0, .ok .null)] g ∧
        Turns (Turn.take 1) g (overlapping rejection ++ [(.ends 0 (.error diedLast), .error r)])
          h' ∧
        Turns (Turn.take 1) g (overlapping rejection) h₁ ∧ h₁.Runs 0 0 ∧
        r = r₀.because e.fault ∧ Entry.accessed 0 a (.error r₀) ∈ h₁.journal ∧
        rejection.fault.isLate = false ∧
        Turns (Turn.directly 1) g us g' ∧ g'.store = h'.store ∧
        h'.store.get (.text "wrap") = .ok (.bool false) := by
  let store : Store :=
    ⟨.initial, builtinClasses, .ready .initial (Pattern.ofChars " \t!@*-+;:,./?".toList), []⟩
  let runner : Runner := ⟨RunnerConfig.initial, .starlark, 0, false⟩
  let h : Host :=
    { Host.ofStore store with
      bridges := [true], bridge := some 0, runners := [runner], runner := some 0 }
  let g : Host := runner.entered (runner.entered h)
  have reached : (Host.ofStore store).Path h :=
    (Relation.ReflTransGen.single .bridgeOpened).tail (.runnerOpened runner)
  have opened : Turns (Turn.take 1) h [(.opens 0, .ok .null), (.opens 0, .ok .null)] g :=
    .taken rfl (.taken rfl (.done g))
  have ran : ∃ rejection r h', r.fault.isOptionError = true ∧
      Turns (Turn.take 1) g (overlapping rejection ++ [(.ends 0 (.error diedLast), .error r)]) h' ∧
      h'.store.get (.text "wrap") = .ok (.bool false) := by
    refine ⟨_, _, _, ?_, .taken rfl (.taken rfl (.taken rfl (.taken rfl (.taken rfl (.done _))))), ?_⟩
    · rfl
    · rfl
  obtain ⟨rejection, r, h', option, turns, read⟩ := ran
  have isolates := evaluations_isolated (reached.trans opened.path) 1
  obtain ⟨e, r₀, a, h₁, earlier, -, raised, made⟩ :=
    isolates.blames _ 0 _ r [] h' turns (blames_error rfl) option
  have runs : g.Runs 0 0 := ⟨_, rfl, rfl, rfl⟩
  have unended : ∀ outcome out, (Turn.ends 0 outcome, out) ∉ overlapping rejection := by
    intro outcome out
    simp [overlapping]
  obtain ⟨still, works⟩ := isolates.lasts _ h₁ 0 0 earlier runs unended
  obtain ⟨us, g', direct, -, -, same, -⟩ := isolates.directly _ h' turns
  exact ⟨h, g, h₁, h', g', us, rejection, r, e, r₀, a, opened, turns, earlier, still, raised, made,
    works _ _ _ rejection List.mem_cons_self, direct, same, read⟩

end Session

end OptionHost
