import CommandScript.Proofs.Recording
import CommandScript.Proofs.Jobs

/-
  What a run of a tree performs. Its jobs are taken up in
  pre-order, each after the one before has ended, up to the
  first that does not succeed. The error of that one is the
  error of the run, and it gets one location at most.

  Key definitions include:
    * `Performance`
    * `Succession`
    * `WorkedOff`

  Main statements:
    * `Job.runAll_recording`
    * `Job.runAll_workedOff`
    * `Group.run_up_to_first_failure`
-/

namespace CommandScript

------------------------------------------------------------
-- Performances
------------------------------------------------------------

/- A command that has been run from its start to its end. -/
structure Performance (κ σ : Type) where
  location : Location
  command : κ
  start : World σ
  finish : World σ
  result : CommandResult

namespace Performance

variable {κ σ : Type}

/- The job that was performed. -/
def job (p : Performance κ σ) : Job κ :=
  .perform p.location p.command

/- How long the command took. -/
def duration (p : Performance κ σ) : Nat :=
  p.finish.clock - p.start.clock

/- How long performances take together. -/
def durationOfAll : List (Performance κ σ) → Nat
| [] => 0
| p :: rest => p.duration + durationOfAll rest

/- The start of the command and its end. -/
def course (p : Performance κ σ) : List (Event κ σ) :=
  [ ⟨p.start.clock, .started p.command⟩,
    ⟨p.finish.clock, .ended p.command p.result⟩ ]

/-
  The routine of the command leads from the start to the
  finish, whatever commands it stands under.
-/
def IsGenuine
    (routine : κ → Routine σ)
    (plan : Plan)
    (p : Performance κ σ) : Prop :=
  ∀ path,
    ((routine p.command).run plan path p.start).outcome =
      ⟨.finished p.result, p.finish⟩

/- One run under any commands shows that all are alike. -/
theorem isGenuine_of_run
    {routine : κ → Routine σ}
    {plan : Plan}
    {p : Performance κ σ}
    {path : List Location}
    (hRun :
      ((routine p.command).run plan path p.start).outcome =
        ⟨.finished p.result, p.finish⟩) :
    p.IsGenuine routine plan := by
  intro path'
  rw [(routine p.command).run_outcome_path plan path' path]
  exact hRun

/- A performance takes its time. -/
theorem finish_clock
    {routine : κ → Routine σ}
    {plan : Plan}
    {p : Performance κ σ}
    (hGenuine : p.IsGenuine routine plan) :
    p.finish.clock = p.start.clock + p.duration := by
  have hClock :=
    (routine p.command).clock_le_run plan [] p.start
  have hFinish := congrArg Outcome.world (hGenuine [])
  simp only [Trail.outcome] at hFinish
  rw [hFinish] at hClock
  simp only [duration]
  omega

end Performance

/-
  Performances that lead from one world to another, each of
  which starts in the world that the one before has left.
-/
def Succession
    {κ σ : Type}
    (routine : κ → Routine σ)
    (plan : Plan) :
    World σ → List (Performance κ σ) → World σ → Prop
| w, [], w' => w = w'
| w, p :: rest, w' =>
    p.start = w ∧ p.IsGenuine routine plan ∧
      Succession routine plan p.finish rest w'

namespace Succession

variable {κ σ : Type}

/- Nothing is performed in a world that stays as it is. -/
theorem nil
    (routine : κ → Routine σ)
    (plan : Plan)
    (w : World σ) :
    Succession routine plan w [] w := rfl

variable {routine : κ → Routine σ} {plan : Plan}
variable {w w' : World σ}

/- A performance that starts at the end extends it. -/
theorem concat
    {done : List (Performance κ σ)}
    {last : Performance κ σ}
    (hDone : Succession routine plan w done last.start)
    (hLast : last.IsGenuine routine plan) :
    Succession routine plan w (done ++ [last])
      last.finish := by
  induction done generalizing w with
  | nil => exact ⟨Eq.symm hDone, hLast, rfl⟩
  | cons p done ih =>
      rcases hDone with ⟨hStart, hGenuine, hRest⟩
      exact ⟨hStart, hGenuine, ih hRest⟩

/- The time that goes by is the sum of what they take. -/
theorem clock_eq
    {done : List (Performance κ σ)}
    (hDone : Succession routine plan w done w') :
    w'.clock =
      w.clock + Performance.durationOfAll done := by
  induction done generalizing w with
  | nil =>
      cases hDone
      rfl
  | cons p done ih =>
      rcases hDone with ⟨hStart, hGenuine, hRest⟩
      have hFinish := Performance.finish_clock hGenuine
      have hClock := ih hRest
      rw [hStart] at hFinish
      simp only [Performance.durationOfAll]
      omega

end Succession

------------------------------------------------------------
-- Jobs That Are Worked Off
------------------------------------------------------------

/-
  How jobs are worked off from a world, with the course of
  the commands that are run. Some jobs are performed with
  success. These are all, or the next one fails, refuses to
  run or is dropped.
-/
inductive WorkedOff
    {κ σ : Type}
    (routine : κ → Routine σ)
    (plan : Plan)
    (w : World σ)
    (done : List (Performance κ σ)) :
    List (Job κ) → List (Event κ σ) → Outcome σ →
      Prop where
| completed
    {w' : World σ}
    (hDone : Succession routine plan w done w')
    (hSuccess : ∀ p ∈ done, p.result = .succeeded) :
    WorkedOff routine plan w done
      (done.map Performance.job)
      (done.flatMap Performance.course)
      ⟨.finished .succeeded, w'⟩
| failed
    {last : Performance κ σ}
    {cause : CommandError}
    (rest : List (Job κ))
    (hDone : Succession routine plan w done last.start)
    (hSuccess : ∀ p ∈ done, p.result = .succeeded)
    (hLast : last.IsGenuine routine plan)
    (hResult : last.result = .failed cause) :
    WorkedOff routine plan w done
      (done.map Performance.job ++ last.job :: rest)
      (done.flatMap Performance.course ++ last.course)
      ⟨.finished
          (.failed (cause.located last.location)),
        last.finish⟩
| refused
    {w' : World σ}
    (line : Nat)
    (cause : CommandError)
    (rest : List (Job κ))
    (hDone : Succession routine plan w done w')
    (hSuccess : ∀ p ∈ done, p.result = .succeeded) :
    WorkedOff routine plan w done
      (done.map Performance.job ++
        .refuse line cause :: rest)
      (done.flatMap Performance.course)
      ⟨.finished
          (.failed (cause.located ⟨groupKind, line⟩)), w'⟩
| dropped
    {w' w'' : World σ}
    (location : Location)
    (command : κ)
    (rest : List (Job κ))
    (hDone : Succession routine plan w done w')
    (hSuccess : ∀ p ∈ done, p.result = .succeeded)
    (hDropped :
      ((routine command).run plan [] w').outcome =
        ⟨.dropped, w''⟩) :
    WorkedOff routine plan w done
      (done.map Performance.job ++
        .perform location command :: rest)
      (done.flatMap Performance.course ++
        [⟨w'.clock, .started command⟩])
      ⟨.dropped, w''⟩

namespace WorkedOff

variable {κ σ : Type}
variable {routine : κ → Routine σ} {plan : Plan}

/- One more success before all that is worked off. -/
theorem cons
    {p : Performance κ σ}
    {done : List (Performance κ σ)}
    {jobs : List (Job κ)}
    {course : List (Event κ σ)}
    {o : Outcome σ}
    (hGenuine : p.IsGenuine routine plan)
    (hResult : p.result = .succeeded)
    (hRest :
      WorkedOff routine plan p.finish done jobs course o) :
    WorkedOff routine plan p.start (p :: done)
      (p.job :: jobs) (p.course ++ course) o := by
  have hSuccess
      (hDone : ∀ q ∈ done, q.result = .succeeded) :
      ∀ q ∈ p :: done, q.result = .succeeded := by
    intro q hq
    rcases List.mem_cons.mp hq with rfl | hq
    · exact hResult
    · exact hDone q hq
  cases hRest with
  | completed hDone hAll =>
      exact
        .completed ⟨rfl, hGenuine, hDone⟩ (hSuccess hAll)
  | failed rest hDone hAll hLast hFailed =>
      rw [← List.append_assoc]
      exact
        .failed rest ⟨rfl, hGenuine, hDone⟩ (hSuccess hAll)
          hLast hFailed
  | refused line cause rest hDone hAll =>
      exact
        .refused line cause rest ⟨rfl, hGenuine, hDone⟩
          (hSuccess hAll)
  | dropped location command rest hDone hAll hDropped =>
      rw [← List.append_assoc]
      exact
        .dropped location command rest
          ⟨rfl, hGenuine, hDone⟩ (hSuccess hAll) hDropped

end WorkedOff

namespace Job

variable {κ σ : Type}
variable (routine : κ → Routine σ) (plan : Plan)

/- A record changes nothing that jobs come to. -/
theorem run_recording
    (job : Job κ)
    (w : World (Recorded κ σ)) :
    (job.run (recording routine) plan w).view
        Recorded.state =
      job.run routine plan w.bare := by
  cases job with
  | refuse line cause => rfl
  | perform location command =>
      have hRun := recording_run routine command plan [] w
      exact (congrArg Trail.outcome hRun).symm

/- A record changes nothing that lists of jobs come to. -/
theorem runAll_recording
    (jobs : List (Job κ))
    (w : World (Recorded κ σ)) :
    (runAll (recording routine) plan jobs w).view
        Recorded.state =
      runAll routine plan jobs w.bare := by
  induction jobs generalizing w with
  | nil => rfl
  | cons job jobs ih =>
      have hJob := run_recording routine plan job w
      rcases (job.run (recording routine) plan
          w).succeeds_or_stops with
        ⟨w', hRun⟩ | hStops
      · rw [hRun] at hJob
        rw [runAll_cons_of_succeeds hRun,
          runAll_cons_of_succeeds hJob.symm]
        exact ih w'
      · have hBare :
            (job.run routine plan w.bare).ending ≠
              .finished .succeeded := by
          rw [← hJob]
          exact hStops
        rw [runAll_cons_of_stops hStops,
          runAll_cons_of_stops hBare, ← hJob]
        rfl

/-
  A recorded command is dropped after its start, or it is
  performed to its end.
-/
theorem perform_cases
    (location : Location)
    (command : κ)
    (w : World (Recorded κ σ)) :
    let o :=
      (Job.perform location command).run (recording routine)
        plan w
    (o.ending = .dropped ∧
        o.world.state.course =
          w.state.course ++
            [⟨w.clock, .started command⟩] ∧
          ((routine command).run plan [] w.bare).outcome =
            ⟨.dropped, o.world.bare⟩) ∨
      ∃ result,
        let p : Performance κ σ :=
          ⟨location, command, w.bare, o.world.bare, result⟩
        o.ending = .finished result ∧
          o.world.state.course =
            w.state.course ++ p.course ∧
            p.IsGenuine routine plan := by
  have hRun := recording_run routine command plan [] w
  have hCourse := recording_course routine command plan [] w
  simp only [run]
  generalize
    (recording routine command).run plan [] w = trail
    at hRun hCourse ⊢
  rcases trail with ⟨ending, w', log⟩
  have hOutcome := congrArg Trail.outcome hRun
  cases ending with
  | dropped => exact .inl ⟨rfl, hCourse, hOutcome⟩
  | finished result =>
      exact
        .inr
          ⟨result, rfl, hCourse,
            Performance.isGenuine_of_run hOutcome⟩

/- Any jobs are worked off, and the record shows how. -/
theorem runAll_workedOff
    (jobs : List (Job κ))
    (w : World (Recorded κ σ)) :
    let o := runAll (recording routine) plan jobs w
    ∃ done course,
      o.world.state.course = w.state.course ++ course ∧
        WorkedOff routine plan w.bare done jobs course
          ⟨o.ending, o.world.bare⟩ := by
  induction jobs generalizing w with
  | nil =>
      exact
        ⟨[], [], (List.append_nil _).symm,
          .completed (.nil routine plan w.bare) (by simp)⟩
  | cons job jobs ih =>
      have hNil := Succession.nil routine plan w.bare
      cases job with
      | refuse line cause =>
          exact
            ⟨[], [], (List.append_nil _).symm,
              .refused line cause jobs hNil (by simp)⟩
      | perform location command =>
          have hCases :=
            perform_cases routine plan location command w
          simp only [runAll]
          generalize
            (Job.perform location command).run
              (recording routine) plan w = o at hCases ⊢
          rcases o with ⟨ending, w'⟩
          rcases hCases with
            ⟨hEnding, hCourse, hDropped⟩ |
            ⟨result, hEnding, hCourse, hGenuine⟩
          · cases hEnding
            exact
              ⟨[], _, hCourse,
                .dropped location command jobs hNil
                  (by simp) hDropped⟩
          · cases hEnding
            cases result with
            | failed cause =>
                exact
                  ⟨[], _, hCourse,
                    .failed jobs hNil (by simp) hGenuine
                      rfl⟩
            | succeeded =>
                rcases ih w' with
                  ⟨done, course, hRest, hWorked⟩
                refine
                  ⟨_, _, ?_, .cons hGenuine rfl hWorked⟩
                rw [← List.append_assoc, ← hCourse]
                exact hRest

end Job

------------------------------------------------------------
-- The First Job That Fails
------------------------------------------------------------

namespace Job

variable {κ σ : Type}

/-
  A job does not succeed after others: its command fails as
  the last that is performed, or it refuses to run and no
  more is performed.
-/
def FailsAfter
    (done performances : List (Performance κ σ))
    (cause : CommandError) : Job κ → Prop
| .perform location command =>
    ∃ last : Performance κ σ,
      last.location = location ∧
        last.command = command ∧
          last.result = .failed cause ∧
            performances = done ++ [last]
| .refuse _ reason =>
    cause = reason ∧ performances = done

/-
  Jobs are taken up to the first that fails: all succeed,
  or the error is that of the first that does not.
-/
def EndsWith
    (jobs : List (Job κ))
    (performances : List (Performance κ σ))
    (result : CommandResult) : Prop :=
  (result = .succeeded ∧
      jobs = performances.map Performance.job ∧
      ∀ p ∈ performances, p.result = .succeeded) ∨
    ∃ done item rest cause error,
      jobs =
        done.map Performance.job ++ item :: rest ∧
      (∀ p ∈ done, p.result = .succeeded) ∧
      item.FailsAfter done performances cause ∧
      result = .failed error ∧
      (cause.location ≠ none → error = cause) ∧
      (cause.location = none →
        error = .raisedAt item.location cause) ∧
      error.rootCause = cause.rootCause

end Job

namespace WorkedOff

variable {κ σ : Type}
variable {routine : κ → Routine σ} {plan : Plan}

/- What is worked off to a result is done in one course. -/
theorem endsWith
    {w : World σ}
    {done : List (Performance κ σ)}
    {jobs : List (Job κ)}
    {course : List (Event κ σ)}
    {o : Outcome σ}
    (hWorked :
      WorkedOff routine plan w done jobs course o)
    (hEnds : o.ending ≠ .dropped) :
    ∃ result performances,
      o.ending = .finished result ∧
        Succession routine plan w performances o.world ∧
          course =
              performances.flatMap Performance.course ∧
            Job.EndsWith jobs performances result := by
  cases hWorked with
  | completed hDone hSuccess =>
      exact
        ⟨.succeeded, done, rfl, hDone, rfl,
          .inl ⟨rfl, rfl, hSuccess⟩⟩
  | @failed last cause rest hDone hSuccess hLast hResult =>
      refine
        ⟨_, done ++ [last], rfl, hDone.concat hLast, ?_,
          .inr ⟨done, last.job, rest, cause, _, rfl,
            hSuccess, ?_, rfl, ?_, ?_, ?_⟩⟩
      · simp
      · exact ⟨last, rfl, rfl, hResult, rfl⟩
      · exact
          CommandError.located_of_location_ne_none _
      · exact
          CommandError.located_of_location_eq_none _
      · exact cause.rootCause_located _
  | refused line cause rest hDone hSuccess =>
      refine
        ⟨_, done, rfl, hDone, rfl,
          .inr ⟨done, .refuse line cause, rest, cause, _,
            rfl, hSuccess, ⟨rfl, rfl⟩, rfl, ?_, ?_, ?_⟩⟩
      · exact
          CommandError.located_of_location_ne_none _
      · exact
          CommandError.located_of_location_eq_none _
      · exact cause.rootCause_located _
  | dropped location command rest hDone hSuccess hDropped =>
      exact absurd rfl hEnds

end WorkedOff

------------------------------------------------------------
-- Runs of Idle Groups
------------------------------------------------------------

namespace Job

variable {κ σ : Type}

/- What is kept is not dropped. -/
theorem runAll_not_dropped
    (routine : κ → Routine σ)
    {plan : Plan}
    (jobs : List (Job κ))
    (w : World σ)
    (hKept : plan.dropAt = none) :
    (runAll routine plan jobs w).ending ≠ .dropped := by
  have hPlan := Plan.kept_of_dropAt_none hKept
  induction jobs generalizing w with
  | nil => simp [runAll, Outcome.pure]
  | cons job jobs ih =>
      have hEnds :
          ∃ result,
            (job.run routine plan w).ending =
              .finished result := by
        cases job with
        | refuse line cause => exact ⟨_, rfl⟩
        | perform location command =>
            rw [← hPlan]
            exact
              (routine command).run_kept_finished plan [] w
      rcases (job.run routine plan w).succeeds_or_stops with
        ⟨w', hRun⟩ | hStops
      · rw [runAll_cons_of_succeeds hRun]
        exact ih w'
      · rw [runAll_cons_of_stops hStops]
        intro hDropped
        rcases hEnds with ⟨result, hResult⟩
        rw [Ending.located_eq_dropped_iff.mp hDropped]
          at hResult
        cases hResult

end Job

namespace Group

variable {κ σ : Type}

/- A record changes nothing that a run comes to. -/
theorem run_recording
    (routine : κ → Routine σ)
    (plan : Plan)
    (g : Group κ)
    (w : World (Recorded κ σ))
    (hIdle : g.state = .idle) :
    (g.run (recording routine) plan w).outcome.view
        Recorded.state =
      (g.run routine plan w.bare).outcome := by
  rw [run_outcome _ plan w hIdle,
    run_outcome _ plan w.bare hIdle]
  exact Job.runAll_recording routine plan g.jobs w

/- An idle group works off its jobs. -/
theorem run_workedOff
    (routine : κ → Routine σ)
    (plan : Plan)
    (g : Group κ)
    (w : World σ)
    (hIdle : g.state = .idle) :
    let p := g.run routine plan w
    let watched :=
      g.run (recording routine) plan w.unrecorded
    ∃ done,
      WorkedOff routine plan w done g.jobs
        watched.world.state.course p.outcome := by
  have hOutcome :=
    run_recording routine plan g w.unrecorded hIdle
  have hWatched :=
    run_outcome (recording routine) plan w.unrecorded hIdle
  rcases Job.runAll_workedOff routine plan g.jobs
      w.unrecorded with
    ⟨done, course, hCourse, hWorked⟩
  rw [← hWatched] at hCourse hWorked
  refine ⟨done, ?_⟩
  have hEqual :
      (g.run (recording routine) plan
          w.unrecorded).world.state.course = course :=
    hCourse
  rw [hEqual]
  exact hOutcome ▸ hWorked

/- A run that is not to be dropped ends with a result. -/
theorem run_not_dropped
    (routine : κ → Routine σ)
    {plan : Plan}
    (g : Group κ)
    (w : World σ)
    (hKept : plan.dropAt = none) :
    (g.run routine plan w).ending ≠ .dropped := by
  cases hState : g.state with
  | running index => simp [run, hState, Passage.refused]
  | completed => simp [run, hState, Passage.refused]
  | idle =>
      have hJobs :=
        Job.runAll_not_dropped routine g.jobs w hKept
      rw [← run_outcome routine plan w hState] at hJobs
      exact hJobs

/-
  The run of an idle group, whatever the states of the
  groups in it. Its jobs are the commands in it and the
  groups that refuse to run, in pre-order. The commands that
  are run are those up to and including the first job that
  does not succeed. They follow one another, and the run
  takes as long as they take together. It succeeds if all
  jobs do; else its error is that of the job that failed,
  as it is if it has a location, and else with the location
  of the job. A run that is not to be dropped comes to such
  an end.
-/
theorem run_up_to_first_failure
    (routine : κ → Routine σ)
    (plan : Plan)
    (g : Group κ)
    (w : World σ)
    (hIdle : g.state = .idle) :
    let p := g.run routine plan w
    let watched :=
      g.run (recording routine) plan w.unrecorded
    (plan.dropAt = none → p.ending ≠ .dropped) ∧
      (p.ending ≠ .dropped →
        ∃ result performances,
          p.ending = .finished result ∧
          Succession routine plan w performances p.world ∧
          watched.ending = p.ending ∧
          watched.world.bare = p.world ∧
          watched.world.state.course =
            performances.flatMap Performance.course ∧
          p.world.clock =
            w.clock +
              Performance.durationOfAll performances ∧
          Job.EndsWith g.jobs performances result) := by
  intro p watched
  have hWatched :=
    run_recording routine plan g w.unrecorded hIdle
  constructor
  · intro hKept
    exact g.run_not_dropped routine w hKept
  · intro hEnds
    rcases run_workedOff routine plan g w hIdle with
      ⟨done, hWorked⟩
    rcases hWorked.endsWith hEnds with
      ⟨result, performances, hEnding, hSuccession,
        hCourse, hEndsWith⟩
    exact
      ⟨result, performances, hEnding, hSuccession,
        congrArg Outcome.ending hWatched,
        congrArg Outcome.world hWatched, hCourse,
        hSuccession.clock_eq, hEndsWith⟩

/- A leaf fails in a group that is beside a spent one. -/
theorem run_up_to_first_failure_in_nested_group :
    let routine
        (cause : Option CommandError) : Routine Unit :=
      .sleep 5 false
        (match cause with
        | none => .succeed
        | some cause => .fail cause)
    let plan : Plan := .undisturbed
    let g : Group (Option CommandError) :=
      ⟨.idle,
        [ .leaf ⟨"step", 1⟩ none,
          .group 2 .idle
            [ .leaf ⟨"step", 3⟩ none,
              .leaf ⟨"step", 4⟩ (some (.failed "no")) ],
          .group 6 .completed [.leaf ⟨"step", 7⟩ none],
          .leaf ⟨"step", 9⟩ none ]⟩
    let p := g.run routine plan (.initial ())
    g.state = .idle ∧
      p.ending ≠ .dropped ∧
      ∃ result performances,
        p.ending = .finished result ∧
          Succession routine plan (.initial ()) performances
            p.world ∧
          p.world.clock =
            Performance.durationOfAll performances ∧
          Job.EndsWith g.jobs performances result := by
  intro routine plan g p
  rcases run_up_to_first_failure routine plan g
      (.initial ()) rfl with
    ⟨hKept, hEnds⟩
  have hEnding : p.ending ≠ .dropped := hKept rfl
  rcases hEnds hEnding with
    ⟨result, performances, hResult, hSuccession, _, _, _,
      hClock, hEndsWith⟩
  refine
    ⟨rfl, hEnding, result, performances, hResult,
      hSuccession, ?_, hEndsWith⟩
  rw [hClock]
  exact Nat.zero_add _

end Group

end CommandScript
