import CommandScript.Proofs.Builtins
import CommandScript.Proofs.Histories

/-
  What is left of a session once cancellation has been
  requested. The request is never taken back. Each builtin
  command ends at once and leaves the world as it is, so a
  tree of them ends with its first leaf.

  Key definitions include:
    * `Builtin.refusal`
    * `World.Rests`
    * `Action.Keeps`

  Main statements:
    * `Builtin.run_of_cancelled`
    * `Job.runAll_of_cancelled`
    * `Session.perform_rests`
    * `Session.history_rests`
    * `Session.inert_after_cancellation`
-/

namespace CommandScript

------------------------------------------------------------
-- Cancelled Commands
------------------------------------------------------------

namespace Builtin

/-
  The error that a command ends with after a cancellation. A
  `fail` does not look whether there was one.
-/
def refusal : Builtin → CommandError
| .fail message => .failed (message.getD defaultFailure)
| _ => .cancelled

/- A location comes around an error that has none. -/
theorem located_refusal
    (command : Builtin)
    (location : Location) :
    command.refusal.located location =
      .raisedAt location command.refusal := by
  cases command <;> rfl

/- After a cancellation a command does nothing but end. -/
theorem run_of_cancelled
    {σ : Type}
    [Sink σ]
    {w : World σ}
    (hCancelled : w.cancelled = true)
    (command : Builtin)
    (plan : Plan)
    (path : List Location) :
    command.routine.run plan path w =
      ⟨.finished (.failed command.refusal), w, []⟩ := by
  cases command with
  | fail message => rfl
  | print message
  | delay duration
  | clear =>
      simp only [routine, Routine.unlessCancelled,
        Routine.run, hCancelled, if_true]
      rfl

end Builtin

------------------------------------------------------------
-- Cancelled Trees
------------------------------------------------------------

section Trees

variable {σ : Type} [Sink σ]
variable {w : World σ}
variable {plan : Plan}

namespace Job

/- The error that a job ends with after a cancellation. -/
def refusal : Job Builtin → CommandError
| .perform _ command => command.refusal
| .refuse _ cause => cause

/- After a cancellation a job does nothing but end. -/
theorem run_of_cancelled
    (hCancelled : w.cancelled = true)
    (job : Job Builtin) :
    job.run Builtin.routine plan w =
      ⟨.finished (.failed job.refusal), w⟩ := by
  cases job with
  | refuse line cause => rfl
  | perform location command =>
      rw [run, Builtin.run_of_cancelled hCancelled]
      rfl

/- After a cancellation the first of jobs is the last. -/
theorem runAll_of_cancelled
    (hCancelled : w.cancelled = true)
    (jobs : List (Job Builtin)) :
    runAll Builtin.routine plan jobs w =
      match jobs with
      | [] => .pure w
      | job :: _ =>
          ⟨.finished
              (.failed (job.refusal.located job.location)),
            w⟩ := by
  cases jobs with
  | nil => rfl
  | cons job rest =>
      have hRun :
          job.run Builtin.routine plan w =
            ⟨.finished (.failed job.refusal), w⟩ :=
        job.run_of_cancelled hCancelled
      rw [runAll_cons_of_stops, hRun]
      · rfl
      · rw [hRun]
        simp

end Job

namespace Group

/- After a cancellation no tree changes the world. -/
theorem run_world_of_cancelled
    (hCancelled : w.cancelled = true)
    (plan : Plan)
    (g : Group Builtin) :
    (g.run Builtin.routine plan w).world = w := by
  refine Group.run_keeps (P := fun w' => w' = w) ?_ g rfl
  rintro command w' rfl
  rw [command.run_of_cancelled hCancelled]

/- After a cancellation a tree fails with its first leaf. -/
theorem run_ending_of_cancelled
    {g : Group Builtin}
    (hCancelled : w.cancelled = true)
    (plan : Plan)
    (hFresh : g.IsFresh) :
    (g.run Builtin.routine plan w).ending =
      .finished
        (match g.leaves with
        | [] => .succeeded
        | leaf :: _ =>
            .failed
              (.raisedAt leaf.location
                leaf.command.refusal)) := by
  have hOutcome :=
    g.run_outcome_of_isFresh Builtin.routine plan w hFresh
  rw [Job.runAll_of_cancelled hCancelled] at hOutcome
  have hEnding := congrArg Outcome.ending hOutcome
  cases hLeaves : g.leaves with
  | nil =>
      rw [hLeaves] at hEnding
      exact hEnding
  | cons leaf rest =>
      rw [hLeaves] at hEnding
      change
        _ =
          Ending.finished
            (.failed
              (leaf.command.refusal.located leaf.location))
        at hEnding
      rw [leaf.command.located_refusal] at hEnding
      exact hEnding

end Group

end Trees

------------------------------------------------------------
-- Cancelled Sessions
------------------------------------------------------------

/-
  From one world to another cancellation has been requested,
  no time has passed, and what is seen of the state has not
  changed.
-/
structure World.Rests
    {σ γ : Type}
    (view : σ → γ)
    (w w' : World σ) : Prop where
  cancelled : w'.cancelled = true
  clock : w'.clock = w.clock
  view : view w'.state = view w.state

/-
  A change of the state from outside of all commands does
  not change what is seen of it, and a callback does not
  either.
-/
def Action.Keeps
    {κ σ γ : Type}
    (view : σ → γ) : Action κ σ → Prop
| .alter change => ∀ state, view (change state) = view state
| .runThen _ onComplete _ _ =>
    ∀ result state,
      view (onComplete result state) = view state
| _ => True

namespace Session

variable {σ γ : Type} [Sink σ]
variable {view : σ → γ}
variable {s : Session Builtin σ}

/- A cancelled session rests in every step. -/
theorem perform_rests
    {action : Action Builtin σ}
    (hCancelled : s.world.cancelled = true)
    (hKeeps : action.Keeps view) :
    s.world.Rests view
      (s.perform Builtin.routine action).1.world := by
  have hSame : s.world.Rests view s.world :=
    ⟨hCancelled, rfl, rfl⟩
  have hEffect := s.perform_effect Builtin.routine action
  generalize
    (s.perform Builtin.routine action).1.world = w,
    (s.perform Builtin.routine action).2 = answer at hEffect ⊢
  cases hEffect with
  | still hAnswer => exact hSame
  | @ran _ _ _ g p hGroup hRun =>
      have hWorld : p.world = s.world := by
        rw [← hRun]
        exact g.run_world_of_cancelled hCancelled _
      rw [hWorld]
      exact hSame
  | @called _ onComplete _ _ g p hGroup hRun =>
      have hWorld : p.world = s.world := by
        rw [← hRun]
        exact g.run_world_of_cancelled hCancelled _
      rcases p.callBack_cases onComplete with
        ⟨result, _, hCalled⟩ | ⟨_, hCalled⟩
      · rw [hCalled, hWorld]
        exact ⟨hCancelled, rfl, hKeeps result _⟩
      · rw [hCalled, hWorld]
        exact hSame
  | cancelled => exact ⟨rfl, rfl, rfl⟩
  | awaited length hLive =>
      rw [hCancelled] at hLive
      cases hLive
  | altered change => exact ⟨hCancelled, rfl, hKeeps _⟩

/- A cancelled session rests for ever. -/
theorem history_rests
    {actions : List (Action Builtin σ)}
    (hCancelled : s.world.cancelled = true)
    (hKeeps : ∀ action ∈ actions, action.Keeps view) :
    s.world.Rests view
      (s.history Builtin.routine actions).world := by
  refine
    Steps.after_keeps
      (P := fun s' : Session Builtin σ =>
        s.world.Rests view s'.world)
      ?_ ⟨hCancelled, rfl, rfl⟩
  intro action hAction s' hRests
  have hStep :=
    perform_rests hRests.cancelled (hKeeps action hAction)
  exact
    ⟨hStep.cancelled, hStep.clock.trans hRests.clock,
      hStep.view.trans hRests.view⟩

/- A run in a cancelled session takes no time. -/
theorem elapsed_of_cancelled
    {id : String}
    {cancelAfter dropAfter : Option Nat}
    {report : RunReport}
    (hCancelled : s.world.cancelled = true)
    (hAnswer :
      (s.perform Builtin.routine
          (.run id cancelAfter dropAfter)).2 =
        .ran report) :
    report.elapsed = 0 := by
  cases hGroup : s.groups.get? id with
  | none =>
      simp only [perform, runBy, hGroup] at hAnswer
      cases hAnswer
  | some g =>
      have hWorld :=
        g.run_world_of_cancelled hCancelled
          (s.plan cancelAfter dropAfter)
      rw [run_of_get? hGroup] at hAnswer
      cases hAnswer
      simp only [report, hWorld, Nat.sub_self]

/-
  A session over the builtin commands after cancellation has
  been requested in it. However it goes on, the request
  stays, no time passes, and nothing that is seen of the
  sink changes unless it is changed from outside. A command,
  and a tree of any shape and state, leaves the world as it
  is when it runs, and its run takes no time. A tree of idle
  groups, and every parsed one is, fails with the first of
  its leaves, at that leaf: a `fail` with its message, any
  other leaf as cancelled; and it succeeds if it has no
  leaves.
-/
theorem inert_after_cancellation
    (view : σ → γ)
    (state : σ)
    (before later : List (Action Builtin σ))
    (hCancelled :
      ((start Builtin.registry state).history
        Builtin.routine before).world.cancelled = true)
    (hKeeps : ∀ action ∈ later, action.Keeps view) :
    let s :=
      (start Builtin.registry state).history
        Builtin.routine before
    let s' := s.history Builtin.routine later
    (s'.world.cancelled = true ∧
      s'.world.clock = s.world.clock ∧
      view s'.world.state = view s.world.state) ∧
    (∀ (command : Builtin) plan path,
      command.routine.run plan path s'.world =
        ⟨.finished (.failed command.refusal), s'.world,
          []⟩) ∧
    (∀ (g : Group Builtin) plan,
      (g.run Builtin.routine plan s'.world).world =
        s'.world) ∧
    (∀ id cancelAfter dropAfter report,
      (s'.perform Builtin.routine
          (.run id cancelAfter dropAfter)).2 =
        .ran report →
        report.elapsed = 0) ∧
    (∀ (g : Group Builtin) plan,
      g.IsFresh →
        (g.run Builtin.routine plan s'.world).ending =
          .finished
            (match g.leaves with
            | [] => .succeeded
            | leaf :: _ =>
                .failed
                  (.raisedAt leaf.location
                    leaf.command.refusal))) ∧
    (∀ dialect text g,
      (⟨Builtin.registry, dialect⟩ : Language Builtin).parse
          text = .ok g →
        g.IsFresh ∧
          ∀ leaf ∈ g.leaves,
            leaf.location.kind = leaf.command.kind) := by
  intro s s'
  have hRests : s.world.Rests view s'.world :=
    history_rests hCancelled hKeeps
  clear_value s s'
  have hStill := hRests.cancelled
  refine
    ⟨⟨hStill, hRests.clock, hRests.view⟩,
      fun command => command.run_of_cancelled hStill,
      fun g plan => g.run_world_of_cancelled hStill plan,
      fun _ _ _ _ => elapsed_of_cancelled hStill,
      fun g plan => Group.run_ending_of_cancelled hStill plan,
      ?_⟩
  intro dialect text g hParse
  refine ⟨(Language.shows_of_parse hParse).1, ?_⟩
  intro leaf hLeaf
  rw [Builtin.location_of_parse hParse hLeaf]

/- A script is cancelled in its delay, another is run. -/
theorem inert_after_cancellation_in_delay :
    let text :=
      "print message=a\ndelay duration=1s\nclear"
    let before : List (Action Builtin Recorder) :=
      [ .parse "g" text .standard,
        .run "g" (some 500000000) none ]
    let later : List (Action Builtin Recorder) :=
      [ .parse "h" text .standard,
        .run "h" none none,
        .alter Recorder.close,
        .run "g" none none ]
    let s :=
      (start Builtin.registry Recorder.empty).history
        Builtin.routine before
    let s' := s.history Builtin.routine later
    s.world.cancelled = true ∧
      (∀ action ∈ later, action.Keeps Recorder.calls) ∧
      s'.world.cancelled = true ∧
      s'.world.clock = 500000000 ∧
      s'.world.state.calls = [.write "a"] := by
  intro text before later s s'
  have hWorld :
      s.world =
        ⟨500000000, true, ⟨[.write "a"], ["a"], false⟩⟩ := by
    decide +kernel
  have hCancelled : s.world.cancelled = true := by
    rw [hWorld]
  have hKeeps :
      ∀ action ∈ later, action.Keeps Recorder.calls := by
    simp [later, Action.Keeps, Recorder.close]
  have hInert :=
    (inert_after_cancellation Recorder.calls Recorder.empty
      before later hCancelled hKeeps).1
  refine ⟨hCancelled, hKeeps, ?_⟩
  simp only [s] at hWorld
  simp only [s', s]
  rw [hWorld] at hInert
  exact hInert

end Session

end CommandScript
