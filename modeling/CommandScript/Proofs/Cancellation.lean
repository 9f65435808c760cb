import CommandScript.Proofs.Builtins
import CommandScript.Proofs.States

/-
  Runs of scripts that are cancelled at some moment. Only a
  delay takes time, so the moment falls into a delay or the
  run ends before it. A delay is cut there; what comes
  before it is as if the run had been left alone.

  Key definitions include:
    * `Leaf.lengthOfAll`
    * `Leaf.callsOfAll`
    * `Leaf.Reached`
    * `Leaf.Awaits`

  Main statements:
    * `Leaf.exists_crossing`
    * `Leaf.runAll_of_spared`
    * `Leaf.runAll_of_cut`
    * `Leaf.runAll_of_not_awaits`
    * `Group.run_cancelled_at`
-/

namespace CommandScript

------------------------------------------------------------
-- Leaves and Moments
------------------------------------------------------------

namespace Leaf

variable {leaves before : List (Leaf Builtin)}
variable {leaf : Leaf Builtin}
variable {moment : Nat}

/- How long leaves take one after another. -/
def lengthOfAll : List (Leaf Builtin) → Nat
| [] => 0
| leaf :: rest => leaf.command.length + lengthOfAll rest

/- What leaves do to the sink one after another. -/
def callsOfAll
    (leaves : List (Leaf Builtin)) : List SinkCall :=
  leaves.filterMap fun leaf => leaf.command.call?

/- Leaves that all succeed when they are left alone. -/
def Succeed (leaves : List (Leaf Builtin)) : Prop :=
  ∀ leaf ∈ leaves, leaf.command.fails = false

/- A leaf is reached after some others if none fails. -/
def Reached
    (leaves before : List (Leaf Builtin))
    (leaf : Leaf Builtin) : Prop :=
  Succeed before ∧
    ∃ after, leaves = before ++ leaf :: after

/- A moment after the start falls into a delay. -/
def Awaits
    (leaves : List (Leaf Builtin))
    (moment : Nat)
    (before : List (Leaf Builtin))
    (leaf : Leaf Builtin) : Prop :=
  Reached leaves before leaf ∧
    ∃ duration,
      leaf.command = .delay duration ∧
        lengthOfAll before < moment ∧
        moment < lengthOfAll before + duration.nanoseconds

/- A moment is not when a delay starts or ends. -/
def IsApart
    (leaves : List (Leaf Builtin))
    (moment : Nat) : Prop :=
  ∀ before leaf duration,
    Reached leaves before leaf →
      leaf.command = .delay duration →
        moment ≠ lengthOfAll before ∧
          moment ≠
            lengthOfAll before + duration.nanoseconds

/- What comes after others takes its time after theirs. -/
theorem lengthOfAll_append
    (early late : List (Leaf Builtin)) :
    lengthOfAll (early ++ late) =
      lengthOfAll early + lengthOfAll late := by
  induction early with
  | nil => exact (Nat.zero_add _).symm
  | cons leaf early ih =>
      rw [List.cons_append, lengthOfAll, lengthOfAll, ih,
        Nat.add_assoc]

/- A moment up to the end is reached in some leaf. -/
theorem exists_crossing
    (hPositive : 0 < moment)
    (hWithin : moment ≤ lengthOfAll leaves) :
    ∃ before leaf after,
      leaves = before ++ leaf :: after ∧
        lengthOfAll before < moment ∧
        moment ≤
          lengthOfAll before + leaf.command.length := by
  induction leaves generalizing moment with
  | nil =>
      rw [lengthOfAll] at hWithin
      omega
  | cons leaf leaves ih =>
      rw [lengthOfAll] at hWithin
      by_cases hFirst : moment ≤ leaf.command.length
      · refine ⟨[], leaf, leaves, rfl, hPositive, ?_⟩
        rw [lengthOfAll]
        omega
      · have hLater :
            0 < moment - leaf.command.length := by
          omega
        rcases ih hLater (by omega) with
          ⟨before, crossed, after, hLeaves, hStart, hEnd⟩
        refine ⟨leaf :: before, crossed, after, ?_, ?_, ?_⟩
        · rw [hLeaves, List.cons_append]
        · rw [lengthOfAll]
          omega
        · rw [lengthOfAll]
          omega

/- A moment at which no leaf ends is apart from delays. -/
theorem isApart_of_take
    (hTakes :
      ∀ n ≤ leaves.length,
        moment ≠ lengthOfAll (leaves.take n)) :
    IsApart leaves moment := by
  intro before leaf duration hReached hCommand
  rcases hReached with ⟨_, after, rfl⟩
  constructor
  · have hStart := hTakes before.length
    rw [List.take_left] at hStart
    apply hStart
    simp
  · have hEnd := hTakes (before.length + 1)
    rw [List.take_length_add_append, lengthOfAll_append,
      List.take_succ_cons, lengthOfAll, hCommand] at hEnd
    apply hEnd
    simp

/- Leaves all succeed, or a first one fails. -/
theorem succeed_or_reached
    (leaves : List (Leaf Builtin)) :
    Succeed leaves ∨
      ∃ before leaf message,
        Reached leaves before leaf ∧
          leaf.command = .fail message := by
  cases hFind :
      leaves.find? fun leaf => leaf.command.fails with
  | none =>
      apply Or.inl
      intro leaf hLeaf
      have hNone := List.find?_eq_none.mp hFind leaf hLeaf
      exact eq_false_of_ne_true hNone
  | some leaf =>
      rcases List.find?_eq_some_iff_append.mp hFind with
        ⟨hFails, before, after, hLeaves, hBefore⟩
      refine .inr ⟨before, leaf, ?_⟩
      cases hCommand : leaf.command with
      | fail message =>
          refine ⟨message, ⟨?_, after, hLeaves⟩, rfl⟩
          intro other hOther
          simpa using hBefore other hOther
      | print message
      | delay duration
      | clear =>
          simp [hCommand, Builtin.fails] at hFails

/- A leaf in leaves that succeed is reached. -/
theorem Reached.of_append
    {early : List (Leaf Builtin)}
    {after : List (Leaf Builtin)}
    (hSucceed : Succeed early)
    (hPrefix : early <+: leaves)
    (hEarly : early = before ++ leaf :: after) :
    Reached leaves before leaf := by
  rcases hPrefix with ⟨late, rfl⟩
  constructor
  · intro other hOther
    apply hSucceed
    rw [hEarly]
    exact List.mem_append_left _ hOther
  · refine ⟨after ++ late, ?_⟩
    rw [hEarly, List.append_assoc, List.cons_append]

theorem Reached.isPrefix
    (hReached : Reached leaves before leaf) :
    before <+: leaves := by
  rcases hReached with ⟨_, after, rfl⟩
  exact List.prefix_append before (leaf :: after)

theorem Reached.mem
    (hReached : Reached leaves before leaf) :
    leaf ∈ leaves := by
  rcases hReached with ⟨_, after, rfl⟩
  exact List.mem_append_right before List.mem_cons_self

/-
  A moment that falls into no delay is after all that is
  reached without a failure.
-/
theorem lengthOfAll_lt_of_not_awaits
    {early : List (Leaf Builtin)}
    (hPositive : 0 < moment)
    (hApart : IsApart leaves moment)
    (hNone :
      ¬ ∃ before leaf, Awaits leaves moment before leaf)
    (hSucceed : Succeed early)
    (hPrefix : early <+: leaves) :
    lengthOfAll early < moment := by
  by_contra hLate
  rcases exists_crossing hPositive (not_lt.mp hLate) with
    ⟨before, leaf, after, hEarly, hStart, hEnd⟩
  have hReached :=
    Reached.of_append hSucceed hPrefix hEarly
  cases hCommand : leaf.command with
  | delay duration =>
      have hEnds := (hApart _ _ _ hReached hCommand).2
      rw [hCommand] at hEnd
      simp only [Builtin.length] at hEnd
      apply hNone
      refine
        ⟨before, leaf, hReached, duration, hCommand, hStart,
          ?_⟩
      omega
  -- No other command takes time.
  | print message
  | clear
  | fail message =>
      simp only [hCommand, Builtin.length] at hEnd
      omega

end Leaf

------------------------------------------------------------
-- Worlds after Leaves
------------------------------------------------------------

namespace World

/- The world after leaves that have not been cut short. -/
def passedAll
    (w : World Recorder)
    (leaves : List (Leaf Builtin)) : World Recorder :=
  w.received (Leaf.lengthOfAll leaves)
    (Leaf.callsOfAll leaves)

/- The sink has been called by the leaves in their order. -/
theorem passedAll_calls
    (w : World Recorder)
    (leaves : List (Leaf Builtin)) :
    (w.passedAll leaves).state.calls =
      w.state.calls ++ Leaf.callsOfAll leaves :=
  Recorder.calls_foldl_receive w.state _

/- The first leaf passes before the others. -/
theorem passedAll_cons
    (w : World Recorder)
    (leaf : Leaf Builtin)
    (leaves : List (Leaf Builtin)) :
    w.passedAll (leaf :: leaves) =
      (w.passed leaf.command).passedAll leaves := by
  unfold passedAll passed received Leaf.callsOfAll
  rw [Leaf.lengthOfAll, Nat.add_assoc]
  cases hCall : leaf.command.call? <;> simp [hCall]

end World

------------------------------------------------------------
-- Runs of Leaves
------------------------------------------------------------

namespace Leaf

variable {leaves before after : List (Leaf Builtin)}
variable {leaf : Leaf Builtin}
variable {plan : Plan}
variable {w : World Recorder}

/- Leaves that are spared to their end all pass. -/
theorem runAll_of_spared
    (hOpen : w.state.closed = false)
    (hLive : w.cancelled = false)
    (hSpares : plan.Spares (w.clock + lengthOfAll leaves))
    (hSucceed : Succeed leaves) :
    Job.runAll Builtin.routine plan (leaves.map job) w =
      ⟨.finished .succeeded, w.passedAll leaves⟩ := by
  induction leaves generalizing w with
  | nil => rfl
  | cons leaf leaves ih =>
      simp only [lengthOfAll, ← Nat.add_assoc] at hSpares
      have hFirst :
          leaf.job.run Builtin.routine plan w =
            ⟨.finished .succeeded,
              w.passed leaf.command⟩ := by
        apply Builtin.run_of_spared hOpen hLive
        · exact hSpares.of_le (Nat.le_add_right _ _)
        · exact hSucceed leaf List.mem_cons_self
      rw [List.map_cons, Job.runAll_cons_of_succeeds hFirst,
        World.passedAll_cons]
      have hRest : Succeed leaves := by
        intro other hOther
        exact hSucceed other (List.mem_cons_of_mem _ hOther)
      apply ih _ _ hSpares hRest
      · rw [World.passed, World.received_closed, hOpen]
      · exact hLive

/- A leaf that fails after others that pass is the last. -/
theorem runAll_of_stops
    {cause : CommandError}
    {w' : World Recorder}
    (hBefore :
      Job.runAll Builtin.routine plan (before.map job) w =
        ⟨.finished .succeeded, w.passedAll before⟩)
    (hStops :
      leaf.job.run Builtin.routine plan
          (w.passedAll before) =
        ⟨.finished (.failed cause), w'⟩) :
    Job.runAll Builtin.routine plan
        ((before ++ leaf :: after).map job) w =
      ⟨.finished (.failed (cause.located leaf.location)),
        w'⟩ := by
  rw [List.map_append, List.map_cons, Job.runAll_append,
    hBefore]
  simp only [Outcome.andThen]
  rw [Job.runAll_cons_of_stops, hStops]
  · rfl
  · rw [hStops]
    simp

/- A `fail` that is reached is the last. -/
theorem runAll_of_fail
    {message : Option String}
    (hOpen : w.state.closed = false)
    (hLive : w.cancelled = false)
    (hSpares : plan.Spares (w.clock + lengthOfAll before))
    (hReached : Reached leaves before leaf)
    (hCommand : leaf.command = .fail message) :
    Job.runAll Builtin.routine plan (leaves.map job) w =
      ⟨.finished
          (.failed
            (.raisedAt leaf.location
              (.failed
                (message.getD Builtin.defaultFailure)))),
        w.passedAll before⟩ := by
  rcases hReached with ⟨hSucceed, after, rfl⟩
  have hBefore :=
    runAll_of_spared hOpen hLive hSpares hSucceed
  have hStops :
      leaf.job.run Builtin.routine plan
          (w.passedAll before) =
        ⟨.finished
            (.failed
              (.failed
                (message.getD Builtin.defaultFailure))),
          w.passedAll before⟩ := by
    unfold job
    rw [hCommand]
    rfl
  exact runAll_of_stops hBefore hStops

/- A delay that a cancellation falls into is the last. -/
theorem runAll_of_cut
    {moment : Nat}
    (hOpen : w.state.closed = false)
    (hLive : w.cancelled = false)
    (hAwaits : Awaits leaves moment before leaf) :
    Job.runAll Builtin.routine ⟨some (w.clock + moment), none⟩
        (leaves.map job) w =
      ⟨.finished
          (.failed (.raisedAt leaf.location .cancelled)),
        ⟨w.clock + moment, true,
          (w.passedAll before).state⟩⟩ := by
  rcases hAwaits with
    ⟨⟨hSucceed, after, rfl⟩, duration, hCommand, hStart,
      hEnd⟩
  have hBefore :
      Job.runAll Builtin.routine
          ⟨some (w.clock + moment), none⟩
          (before.map job) w =
        ⟨.finished .succeeded, w.passedAll before⟩ := by
    apply runAll_of_spared hOpen hLive _ hSucceed
    apply Plan.spares_of_lt
    omega
  have hStops :
      leaf.job.run Builtin.routine
          ⟨some (w.clock + moment), none⟩
          (w.passedAll before) =
        ⟨.finished (.failed .cancelled),
          ⟨w.clock + moment, true,
            (w.passedAll before).state⟩⟩ := by
    have hStill : (w.passedAll before).cancelled = false :=
      hLive
    unfold job
    rw [hCommand]
    apply Builtin.run_of_cut hStill
    · simp only [World.passedAll, World.received]
      omega
    · simp only [World.passedAll, World.received]
      omega
  exact runAll_of_stops hBefore hStops

/-
  A cancellation that falls into no delay leaves the run as
  it is without one.
-/
theorem runAll_of_not_awaits
    {moment : Nat}
    (hOpen : w.state.closed = false)
    (hLive : w.cancelled = false)
    (hPositive : 0 < moment)
    (hApart : IsApart leaves moment)
    (hNone :
      ¬ ∃ before leaf, Awaits leaves moment before leaf) :
    Job.runAll Builtin.routine
        ⟨some (w.clock + moment), none⟩ (leaves.map job) w =
      Job.runAll Builtin.routine .undisturbed
        (leaves.map job) w := by
  have hSpares
      {early : List (Leaf Builtin)}
      (hSucceed : Succeed early)
      (hPrefix : early <+: leaves) :
      (⟨some (w.clock + moment), none⟩ : Plan).Spares
        (w.clock + lengthOfAll early) := by
    apply Plan.spares_of_lt
    apply Nat.add_lt_add_left
    exact
      lengthOfAll_lt_of_not_awaits hPositive hApart hNone
        hSucceed hPrefix
  rcases succeed_or_reached leaves with
    hSucceed | ⟨before, leaf, message, hReached, hCommand⟩
  · rw [runAll_of_spared hOpen hLive
        (hSpares hSucceed List.prefix_rfl) hSucceed,
      runAll_of_spared hOpen hLive
        (Plan.undisturbed_spares _) hSucceed]
  · rw [runAll_of_fail hOpen hLive
        (hSpares hReached.1 hReached.isPrefix) hReached
        hCommand,
      runAll_of_fail hOpen hLive
        (Plan.undisturbed_spares _) hReached hCommand]

end Leaf

------------------------------------------------------------
-- Runs of Scripts
------------------------------------------------------------

/- A passage that has made the calls of some leaves. -/
theorem Passage.ends_of_outcome
    {τ : Type}
    {p : Passage τ Recorder}
    {ending : Ending}
    {w w' : World Recorder}
    {leaves : List (Leaf Builtin)}
    (hOutcome : p.outcome = ⟨ending, w'⟩)
    (hState : w'.state = (w.passedAll leaves).state) :
    p.ending = ending ∧
      p.world.clock = w'.clock ∧
      p.world.state.calls =
        w.state.calls ++ Leaf.callsOfAll leaves := by
  have hWorld : p.world = w' :=
    congrArg Outcome.world hOutcome
  rw [hWorld, hState, World.passedAll_calls]
  exact ⟨congrArg Outcome.ending hOutcome, rfl, rfl⟩

namespace Group

/-
  The run of a script over an open sink, cancelled at a
  moment after its start that is not when a delay starts or
  ends, if it is still under way then. If the moment falls
  into a delay that is reached, the run ends there with the
  cancelled delay, and the sink has been called by what is
  before the delay. Else the run is the one that is left
  alone. That ends at the first `fail`, with its message, or
  it succeeds, and it takes as long as the delays before its
  end take together.
-/
theorem run_cancelled_at
    (dialect : Dialect)
    (text : String)
    (g : Group Builtin)
    (w : World Recorder)
    (moment : Nat)
    (hParse :
      (⟨Builtin.registry, dialect⟩ : Language Builtin).parse
          text =
        .ok g)
    (hOpen : w.state.closed = false)
    (hLive : w.cancelled = false)
    (hPositive : 0 < moment)
    (hApart : Leaf.IsApart g.leaves moment) :
    let p :=
      g.run Builtin.routine ⟨some (w.clock + moment), none⟩ w
    let q := g.run Builtin.routine .undisturbed w
    (∀ before leaf,
      Leaf.Awaits g.leaves moment before leaf →
        p.ending =
          .finished
            (.failed
              (.raisedAt ⟨"delay", leaf.location.line⟩
                .cancelled)) ∧
        p.world.clock = w.clock + moment ∧
        p.world.state.calls =
          w.state.calls ++ Leaf.callsOfAll before) ∧
      ((¬ ∃ before leaf,
          Leaf.Awaits g.leaves moment before leaf) →
        p.outcome = q.outcome) ∧
      ((Leaf.Succeed g.leaves ∧
          q.ending = .finished .succeeded ∧
          q.world.clock =
            w.clock + Leaf.lengthOfAll g.leaves ∧
          q.world.state.calls =
            w.state.calls ++ Leaf.callsOfAll g.leaves) ∨
        ∃ before leaf message,
          Leaf.Reached g.leaves before leaf ∧
          leaf.command = .fail message ∧
          q.ending =
            .finished
              (.failed
                (.raisedAt ⟨"fail", leaf.location.line⟩
                  (.failed
                    (message.getD
                      Builtin.defaultFailure)))) ∧
          q.world.clock =
            w.clock + Leaf.lengthOfAll before ∧
          q.world.state.calls =
            w.state.calls ++ Leaf.callsOfAll before) := by
  intro p q
  rcases Language.shows_of_parse hParse with ⟨hFresh, _⟩
  have hCut :
      p.outcome = Job.runAll Builtin.routine _ _ w :=
    run_outcome_of_isFresh _ _ w hFresh
  have hLeft :
      q.outcome = Job.runAll Builtin.routine _ _ w :=
    run_outcome_of_isFresh _ _ w hFresh
  refine ⟨?_, ?_, ?_⟩
  · intro before leaf hAwaits
    rw [Leaf.runAll_of_cut hOpen hLive hAwaits] at hCut
    rcases hAwaits with ⟨hReached, duration, hCommand, _⟩
    have hLocation :=
      Builtin.location_of_parse hParse hReached.mem
    rw [hCommand] at hLocation
    rw [hLocation] at hCut
    exact Passage.ends_of_outcome hCut rfl
  · intro hNone
    rw [hCut, hLeft]
    exact
      Leaf.runAll_of_not_awaits hOpen hLive hPositive hApart
        hNone
  · rcases Leaf.succeed_or_reached g.leaves with
      hSucceed |
      ⟨before, leaf, message, hReached, hCommand⟩
    · rw [Leaf.runAll_of_spared hOpen hLive
        (Plan.undisturbed_spares _) hSucceed] at hLeft
      exact
        .inl ⟨hSucceed, Passage.ends_of_outcome hLeft rfl⟩
    · rw [Leaf.runAll_of_fail hOpen hLive
        (Plan.undisturbed_spares _) hReached hCommand]
        at hLeft
      have hLocation :=
        Builtin.location_of_parse hParse hReached.mem
      rw [hCommand] at hLocation
      rw [hLocation] at hLeft
      exact
        .inr
          ⟨before, leaf, message, hReached, hCommand,
            Passage.ends_of_outcome hLeft rfl⟩

/- A script is cancelled in the delay of a nested group. -/
theorem run_cancelled_at_in_nested_group :
    let l : Language Builtin :=
      ⟨Builtin.registry, .standard⟩
    let text :=
      "print message=a\n\x7b\ndelay duration=0s\nclear\n" ++
        "delay duration=2s\nprint message=b\n\x7d\nfail"
    let moment := 500000000
    let w : World Recorder := .initial .empty
    ∃ g : Group Builtin,
      l.parse text = .ok g ∧
        Leaf.IsApart g.leaves moment ∧
        let p := g.run Builtin.routine ⟨some moment, none⟩ w
        p.ending =
            .finished
              (.failed
                (.raisedAt ⟨"delay", 5⟩ .cancelled)) ∧
          p.world.clock = moment ∧
          p.world.state.calls = [.write "a", .clear] := by
  intro l text moment w
  let two : Duration := ⟨2000000000, by decide⟩
  let g : Group Builtin :=
    ⟨.idle,
      [ .leaf ⟨"print", 1⟩ (.print "a"),
        .group 2 .idle
          [ .leaf ⟨"delay", 3⟩ (.delay .zero),
            .leaf ⟨"clear", 4⟩ .clear,
            .leaf ⟨"delay", 5⟩ (.delay two),
            .leaf ⟨"print", 6⟩ (.print "b") ],
        .leaf ⟨"fail", 8⟩ (.fail none) ]⟩
  have hParse : l.parse text = .ok g := by
    simp only [l, text, g, two]
    with_unfolding_all rfl
  have hApart : Leaf.IsApart g.leaves moment := by
    apply Leaf.isApart_of_take
    decide
  have hAwaits :
      Leaf.Awaits g.leaves moment (g.leaves.take 3)
        ⟨[1, 2], ⟨"delay", 5⟩, .delay two⟩ := by
    refine ⟨⟨?_, _, rfl⟩, two, rfl, ?_, ?_⟩
    · unfold Leaf.Succeed
      decide
    · decide
    · decide
  have hRun :=
    run_cancelled_at .standard text g w moment hParse rfl rfl
      (by decide) hApart
  have hCut := hRun.1 _ _ hAwaits
  have hStart : w.clock + moment = moment :=
    Nat.zero_add moment
  rw [hStart] at hCut
  exact ⟨g, hParse, hApart, hCut⟩

end Group

end CommandScript
