import CommandScript.Proofs.FirstFailure

/-
  Runs that are dropped, beside the same runs when they are
  kept. What a dropped run has done is what the kept run has
  done up to that moment.

  Main statements:
    * `Job.runAll_of_finished`
    * `Job.runAll_isCutOff`
    * `Group.run_eq_kept`
    * `Group.run_cut_off`
-/

namespace CommandScript

namespace Job

variable {κ σ : Type}

/-
  A job that ends with a result is the one of a run that is
  kept, and it ends before the drop.
-/
theorem run_of_finished
    {routine : κ → Routine σ}
    {plan : Plan}
    {job : Job κ}
    {w : World σ}
    (hEnds : (job.run routine plan w).ending ≠ .dropped) :
    job.run routine plan w = job.run routine plan.kept w ∧
      ∀ drop, plan.dropAt = some drop → w.clock ≤ drop →
        (job.run routine plan w).world.clock ≤ drop := by
  cases job with
  | refuse line cause =>
      exact ⟨rfl, fun _ _ hClock => hClock⟩
  | perform location command =>
      rcases Routine.run_of_finished hEnds with
        ⟨hSame, hInTime⟩
      exact ⟨congrArg Trail.outcome hSame, hInTime⟩

/- Jobs that end with a result do so before the drop. -/
theorem runAll_of_finished
    {routine : κ → Routine σ}
    {plan : Plan}
    {jobs : List (Job κ)}
    {w : World σ}
    (hEnds :
      (runAll routine plan jobs w).ending ≠ .dropped) :
    runAll routine plan jobs w =
      runAll routine plan.kept jobs w := by
  induction jobs generalizing w with
  | nil => rfl
  | cons job jobs ih =>
      rcases (job.run routine plan w).succeeds_or_stops with
        ⟨w', hRun⟩ | hStops
      · have hJob :
            (job.run routine plan w).ending ≠ .dropped := by
          simp [hRun]
        have hSame := (run_of_finished hJob).1
        rw [hRun] at hSame
        rw [runAll_cons_of_succeeds hRun] at hEnds ⊢
        rw [runAll_cons_of_succeeds hSame.symm]
        exact ih hEnds
      · rw [runAll_cons_of_stops hStops] at hEnds ⊢
        have hJob :
            (job.run routine plan w).ending ≠ .dropped := by
          intro hDropped
          exact
            hEnds
              (Ending.located_eq_dropped_iff.mpr hDropped)
        have hSame := (run_of_finished hJob).1
        rw [hSame] at hStops
        rw [runAll_cons_of_stops hStops, hSame]

section Recording

variable (routine : κ → Routine σ) (plan : Plan)

/- A recorded job only adds to the history. -/
theorem run_leadsTo
    (job : Job κ)
    (w : World (Recorded κ σ)) :
    w.LeadsTo
      (job.run (recording routine) plan w).world := by
  cases job with
  | refuse line cause => exact .refl w
  | perform location command =>
      exact recording_leadsTo routine command plan [] w

/- Recorded jobs only add to the history. -/
theorem runAll_leadsTo
    (jobs : List (Job κ))
    (w : World (Recorded κ σ)) :
    w.LeadsTo
      (runAll (recording routine) plan jobs w).world := by
  induction jobs generalizing w with
  | nil => exact .refl w
  | cons job jobs ih =>
      have hJob := run_leadsTo routine plan job w
      rcases (job.run (recording routine) plan
          w).succeeds_or_stops with
        ⟨w', hRun⟩ | hStops
      · rw [runAll_cons_of_succeeds hRun]
        rw [hRun] at hJob
        exact hJob.trans (ih w')
      · rw [runAll_cons_of_stops hStops]
        exact hJob

/- What comes after the first job only adds to it. -/
theorem run_leadsTo_runAll
    (job : Job κ)
    (jobs : List (Job κ))
    (w : World (Recorded κ σ)) :
    (job.run (recording routine) plan w).world.LeadsTo
      (runAll (recording routine) plan (job :: jobs)
        w).world := by
  rcases (job.run (recording routine) plan
      w).succeeds_or_stops with
    ⟨w', hRun⟩ | hStops
  · rw [runAll_cons_of_succeeds hRun, hRun]
    exact runAll_leadsTo routine plan jobs w'
  · rw [runAll_cons_of_stops hStops]
    exact .refl _

/- A recorded job that is dropped is cut off. -/
theorem run_isCutOff
    (job : Job κ)
    (w : World (Recorded κ σ))
    (hDropped :
      (job.run (recording routine) plan w).ending =
        .dropped) :
    World.IsCutOff plan.dropAt w
      (job.run (recording routine) plan w).world
      (job.run (recording routine) plan.kept w).world := by
  cases job with
  | refuse line cause => cases hDropped
  | perform location command =>
      exact
        recording_isCutOff routine command plan [] w
          hDropped

/- Recorded jobs that are dropped are cut off. -/
theorem runAll_isCutOff
    (jobs : List (Job κ))
    (w : World (Recorded κ σ))
    (hDropped :
      (runAll (recording routine) plan jobs w).ending =
        .dropped) :
    World.IsCutOff plan.dropAt w
      (runAll (recording routine) plan jobs w).world
      (runAll (recording routine) plan.kept jobs
        w).world := by
  induction jobs generalizing w with
  | nil => cases hDropped
  | cons job jobs ih =>
      rcases (job.run (recording routine) plan
          w).succeeds_or_stops with
        ⟨w', hRun⟩ | hStops
      · have hJob :
            (job.run (recording routine) plan
              w).ending ≠ .dropped := by
          simp [hRun]
        rcases run_of_finished hJob with ⟨hSame, hInTime⟩
        rw [hRun] at hSame hInTime
        rw [runAll_cons_of_succeeds hRun] at hDropped ⊢
        rw [runAll_cons_of_succeeds hSame.symm]
        exact (ih w' hDropped).of_later hInTime
      · rw [runAll_cons_of_stops hStops] at hDropped ⊢
        have hJob :=
          Ending.located_eq_dropped_iff.mp hDropped
        have hCut := run_isCutOff routine plan job w hJob
        have hLeads :=
          run_leadsTo_runAll routine plan.kept job jobs w
        exact hCut.trans hLeads

end Recording

end Job

namespace Group

variable {κ σ : Type}

/- A recorded run that is not dropped is the kept one. -/
theorem run_eq_kept
    (routine : κ → Routine σ)
    (plan : Plan)
    (g : Group κ)
    (w : World σ)
    (hIdle : g.state = .idle)
    (hEnds :
      (g.run (recording routine) plan
        w.unrecorded).ending ≠ .dropped) :
    (g.run (recording routine) plan w.unrecorded).outcome =
      (g.run (recording routine) plan.kept
        w.unrecorded).outcome := by
  have hWatched :=
    run_outcome (recording routine) plan w.unrecorded hIdle
  have hKept :=
    run_outcome (recording routine) plan.kept w.unrecorded
      hIdle
  have hJobs :
      (Job.runAll (recording routine) plan g.jobs
        w.unrecorded).ending ≠ .dropped := by
    rw [← hWatched]
    exact hEnds
  rw [hWatched, hKept]
  exact Job.runAll_of_finished hJobs

/-
  The history of a recorded run that is dropped is the first
  part of that of the kept run: what is done up to the drop.
-/
theorem run_cut_off
    (routine : κ → Routine σ)
    (plan : Plan)
    (g : Group κ)
    (w : World σ)
    (hIdle : g.state = .idle)
    (hDropped :
      (g.run (recording routine) plan
        w.unrecorded).ending = .dropped) :
    let watched :=
      g.run (recording routine) plan w.unrecorded
    let kept :=
      g.run (recording routine) plan.kept w.unrecorded
    ∃ drop later,
      plan.dropAt = some drop ∧
        kept.world.state.history =
          watched.world.state.history ++ later ∧
        (w.clock ≤ drop →
          watched.world.clock = drop ∧
          (∀ event ∈ watched.world.state.history,
            event.moment ≤ drop) ∧
          ∀ event ∈ later, drop < event.moment) := by
  intro watched kept
  have hWatched :=
    run_outcome (recording routine) plan w.unrecorded hIdle
  have hKept :=
    run_outcome (recording routine) plan.kept w.unrecorded
      hIdle
  have hJobs :
      (Job.runAll (recording routine) plan g.jobs
        w.unrecorded).ending = .dropped := by
    rw [← hWatched]
    exact hDropped
  have hCut :=
    Job.runAll_isCutOff routine plan g.jobs w.unrecorded
      hJobs
  have hLeads :=
    Job.runAll_leadsTo routine plan g.jobs w.unrecorded
  rw [← hWatched] at hLeads hCut
  rw [← hKept] at hCut
  rcases hCut with
    ⟨drop, resumed, hDrop, hState, hLater, hClock⟩
  rcases hLater with ⟨_, later, hHistory, hIn⟩
  rcases hLeads with ⟨_, early, hEarly, hEarlyIn⟩
  refine ⟨drop, later, hDrop, ?_, ?_⟩
  · rw [hState] at hHistory
    exact hHistory
  · intro hStart
    rcases hClock hStart with ⟨hNow, hResumed⟩
    refine ⟨hNow, ?_, ?_⟩
    · intro event hEvent
      have hHistory :
          watched.world.state.history = early := hEarly
      rw [hHistory] at hEvent
      have hMoment := (hEarlyIn event hEvent).2
      exact Nat.le_trans hMoment (Nat.le_of_eq hNow)
    · intro event hEvent
      exact
        Nat.lt_of_lt_of_le hResumed (hIn event hEvent).1

end Group

end CommandScript
