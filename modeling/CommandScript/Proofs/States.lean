import CommandScript.Proofs.Drops
import CommandScript.Proofs.Reach

/-
  The states of the groups of a fresh tree after a run. They
  depend only on how far the run has reached, and the course
  of the run shows how far that is.

  Key definitions include:
    * `Leaf.success`
    * `Reach.Shows`

  Main statements:
    * `WorkedOff.shows`
    * `Group.run_subject`
    * `Group.run_states_of_reach`
-/

namespace CommandScript

------------------------------------------------------------
-- What a Reach Shows
------------------------------------------------------------

/- The start of a leaf and its success. -/
def Leaf.success
    {κ σ : Type}
    (leaf : Leaf κ) : List (Deed κ σ) :=
  [.started leaf.command, .ended leaf.command .succeeded]

/-
  How a run ends that has reached so far, and which commands
  have started and ended in it. The leaves before the one
  that is reached have all ended with success, and no leaf
  after it has started.
-/
def Reach.Shows
    {κ σ : Type}
    (leaves : List (Leaf κ))
    (ending : Ending)
    (deeds : List (Deed κ σ)) : Reach → Prop
| .atEnd =>
    ending = .finished .succeeded ∧
      deeds = leaves.flatMap Leaf.success
| .failedAt address =>
    ∃ before leaf after cause,
      leaves = before ++ leaf :: after ∧
      leaf.address = address ∧
      ending =
        .finished (.failed (cause.located leaf.location)) ∧
      deeds =
        before.flatMap Leaf.success ++
          [ .started leaf.command,
            .ended leaf.command (.failed cause) ]
| .droppedAt address =>
    ∃ before leaf after,
      leaves = before ++ leaf :: after ∧
      leaf.address = address ∧
      ending = .dropped ∧
      deeds =
        before.flatMap Leaf.success ++
          [.started leaf.command]

section Successes

variable {κ σ : Type}
variable {routine : κ → Routine σ} {plan : Plan}

/- A run reaches beyond the leaves that are performed. -/
theorem Succession.reach_append
    {w w' : World σ}
    {done : List (Performance κ σ)}
    {before : List (Leaf κ)}
    (hDone : Succession routine plan w done w')
    (hSuccess : ∀ p ∈ done, p.result = .succeeded)
    (hJobs :
      before.map Leaf.job = done.map Performance.job)
    (after : List (Leaf κ)) :
    Leaf.reach routine plan (before ++ after) w =
      Leaf.reach routine plan after w' := by
  induction done generalizing w before with
  | nil =>
      cases hDone
      rw [List.map_nil, List.map_eq_nil_iff] at hJobs
      rw [hJobs, List.nil_append]
  | cons p done ih =>
      rcases hDone with ⟨rfl, hGenuine, hRest⟩
      rcases List.map_eq_cons_iff.mp hJobs with
        ⟨leaf, before, rfl, hJob, hJobs⟩
      rcases List.forall_mem_cons.mp hSuccess with
        ⟨hResult, hSuccess⟩
      have hRun :
          leaf.job.run routine plan p.start =
            ⟨.finished .succeeded, p.finish⟩ := by
        rw [hJob, ← hResult]
        exact hGenuine []
      rw [List.cons_append,
        Leaf.reach_cons_of_succeeds hRun]
      exact ih hRest hSuccess hJobs

/- What performances with success write down. -/
theorem Performance.course_deeds
    {done : List (Performance κ σ)}
    {before : List (Leaf κ)}
    (hSuccess : ∀ p ∈ done, p.result = .succeeded)
    (hJobs :
      before.map Leaf.job = done.map Performance.job) :
    (done.flatMap Performance.course).map Event.deed =
      before.flatMap Leaf.success := by
  induction done generalizing before with
  | nil =>
      rw [List.map_nil, List.map_eq_nil_iff] at hJobs
      rw [hJobs]
      rfl
  | cons p done ih =>
      rcases List.map_eq_cons_iff.mp hJobs with
        ⟨leaf, before, rfl, hJob, hJobs⟩
      rcases List.forall_mem_cons.mp hSuccess with
        ⟨hResult, hSuccess⟩
      have hNext := ih hSuccess hJobs
      have hCommand : leaf.command = p.command := by
        injection hJob
      simp [Performance.course, Leaf.success, hNext,
        hCommand, hResult]

/- What is worked off shows how far the leaves reach. -/
theorem WorkedOff.shows
    {w : World σ}
    {done : List (Performance κ σ)}
    {leaves : List (Leaf κ)}
    {jobs : List (Job κ)}
    {course : List (Event κ σ)}
    {o : Outcome σ}
    (hWorked :
      WorkedOff routine plan w done jobs course o)
    (hJobs : leaves.map Leaf.job = jobs) :
    (Leaf.reach routine plan leaves w).Shows leaves
      o.ending (course.map Event.deed) := by
  cases hWorked with
  | completed hDone hSuccess =>
      have hReach := hDone.reach_append hSuccess hJobs []
      rw [List.append_nil] at hReach
      rw [hReach]
      exact
        ⟨rfl, Performance.course_deeds hSuccess hJobs⟩
  | @failed last cause rest hDone hSuccess hLast hResult =>
      rcases List.map_eq_append_iff.mp hJobs with
        ⟨before, others, rfl, hBefore, hOthers⟩
      rcases List.map_eq_cons_iff.mp hOthers with
        ⟨leaf, after, rfl, hJob, _⟩
      have hDeeds :=
        Performance.course_deeds hSuccess hBefore
      have hRun :
          leaf.job.run routine plan last.start =
            ⟨.finished (.failed cause), last.finish⟩ := by
        rw [hJob, ← hResult]
        exact hLast []
      injection hJob with hLocation hCommand
      rw [hDone.reach_append hSuccess hBefore, Leaf.reach,
        hRun]
      refine
        ⟨before, leaf, after, cause, rfl, rfl, ?_, ?_⟩
      · rw [hLocation]
      · simp [hDeeds, Performance.course, hCommand, hResult]
  | refused line cause rest hDone hSuccess =>
      rcases List.map_eq_append_iff.mp hJobs with
        ⟨before, others, rfl, hBefore, hOthers⟩
      rcases List.map_eq_cons_iff.mp hOthers with
        ⟨leaf, after, rfl, hJob, _⟩
      cases hJob
  | dropped location command rest hDone hSuccess hDropped =>
      rcases List.map_eq_append_iff.mp hJobs with
        ⟨before, others, rfl, hBefore, hOthers⟩
      rcases List.map_eq_cons_iff.mp hOthers with
        ⟨leaf, after, rfl, hJob, _⟩
      have hDeeds :=
        Performance.course_deeds hSuccess hBefore
      cases hJob
      rw [hDone.reach_append hSuccess hBefore, Leaf.reach,
        Leaf.job, Job.run, hDropped]
      refine ⟨before, leaf, after, rfl, rfl, rfl, ?_⟩
      simp [hDeeds]

end Successes

------------------------------------------------------------
-- Runs of Fresh Groups
------------------------------------------------------------

namespace Group

variable {κ : Type}

/- In pre-order the addresses in a group grow. -/
theorem addresses_pairwise
    (g : Group κ) :
    g.addresses.Pairwise (· < ·) := by
  apply List.pairwise_cons.mpr
  refine ⟨?_, Node.addressesFrom_pairwise 0 g.children⟩
  intro address hAddress
  rcases Node.of_mem_addressesFrom hAddress with
    ⟨child, rest, rfl, _⟩
  exact List.nil_lt_cons child rest

/- The leaves of a group are among its nodes. -/
theorem leaves_sublist
    (g : Group κ) :
    (g.leaves.map Leaf.address).Sublist g.addresses :=
  (Node.leavesFrom_sublist 0 g.children).cons []

/- The jobs of a fresh group are its leaves. -/
theorem jobs_of_isFresh
    {g : Group κ}
    (hFresh : g.IsFresh) :
    g.leaves.map Leaf.job = g.jobs :=
  (Node.jobsOfAll_of_areFresh 0 hFresh.2).symm

/- A fresh group comes to what its leaves come to. -/
theorem run_outcome_of_isFresh
    {σ : Type}
    {g : Group κ}
    (routine : κ → Routine σ)
    (plan : Plan)
    (w : World σ)
    (hFresh : g.IsFresh) :
    (g.run routine plan w).outcome =
      Job.runAll routine plan (g.leaves.map Leaf.job) w := by
  rw [run_outcome routine plan w hFresh.1,
    jobs_of_isFresh hFresh]

/- A run of a fresh group leaves the states of its reach. -/
theorem run_subject
    {σ : Type}
    (routine : κ → Routine σ)
    (plan : Plan)
    {g : Group κ}
    (w : World σ)
    (hFresh : g.IsFresh) :
    (g.run routine plan w).subject =
      g.withStates
        (Leaf.reach routine plan g.leaves w).states := by
  rw [run_of_idle routine plan w hFresh.1]
  exact Node.runFrom_subject routine plan [] 0 hFresh.2 w

/-
  The run of a group that is idle with all groups in it.
  Nodes are named by their addresses, which grow in
  pre-order. The states of all groups afterwards follow from
  how far the run has reached: to the end, to the leaf that
  has failed, or to the leaf in which it was dropped; and
  the leaves that have started and ended show how far that
  is. A run that is not dropped is the one that is kept. One
  that is dropped has done what the one that is kept does up
  to the drop.
-/
theorem run_states_of_reach
    {σ : Type}
    (routine : κ → Routine σ)
    (plan : Plan)
    (g : Group κ)
    (w : World σ)
    (hFresh : g.IsFresh) :
    let p := g.run routine plan w
    let watched :=
      g.run (recording routine) plan w.unrecorded
    let kept :=
      g.run (recording routine) plan.kept w.unrecorded
    g.addresses.Pairwise (· < ·) ∧
      (g.leaves.map Leaf.address).Sublist g.addresses ∧
      (∃ reach : Reach,
        p.subject = g.withStates reach.states ∧
          reach.Shows g.leaves p.ending
            (watched.world.state.course.map
              Event.deed)) ∧
      watched.ending = p.ending ∧
      watched.world.bare = p.world ∧
      (p.ending ≠ .dropped →
        watched.outcome = kept.outcome) ∧
      (p.ending = .dropped →
        ∃ drop later,
          plan.dropAt = some drop ∧
          kept.world.state.history =
            watched.world.state.history ++ later ∧
          (w.clock ≤ drop →
            watched.world.clock = drop ∧
            (∀ event ∈ watched.world.state.history,
              event.moment ≤ drop) ∧
            ∀ event ∈ later, drop < event.moment)) := by
  intro p watched kept
  have hWatched :=
    run_recording routine plan g w.unrecorded hFresh.1
  have hEnding : watched.ending = p.ending :=
    congrArg Outcome.ending hWatched
  rcases run_workedOff routine plan g w hFresh.1 with
    ⟨done, hWorked⟩
  refine
    ⟨g.addresses_pairwise, g.leaves_sublist,
      ⟨_, run_subject routine plan w hFresh,
        hWorked.shows (jobs_of_isFresh hFresh)⟩,
      hEnding, congrArg Outcome.world hWatched, ?_, ?_⟩
  · intro hEnds
    rw [← hEnding] at hEnds
    exact run_eq_kept routine plan g w hFresh.1 hEnds
  · intro hDropped
    rw [← hEnding] at hDropped
    exact run_cut_off routine plan g w hFresh.1 hDropped

/- A run is dropped in the last leaf of a nested group. -/
theorem run_states_of_reach_in_nested_group :
    let routine (length : Nat) : Routine Unit :=
      .sleep length false .succeed
    let plan : Plan := ⟨none, some 12⟩
    let g : Group Nat :=
      ⟨.idle,
        [ .leaf ⟨"wait", 1⟩ 5,
          .group 2 .idle
            [ .leaf ⟨"wait", 3⟩ 5,
              .group 4 .idle [],
              .leaf ⟨"wait", 6⟩ 5 ],
          .leaf ⟨"wait", 8⟩ 5 ]⟩
    let p := g.run routine plan (.initial ())
    let watched :=
      g.run (recording routine) plan
        (World.initial ()).unrecorded
    g.IsFresh ∧
      p.ending = .dropped ∧
      ∃ reach : Reach,
        p.subject = g.withStates reach.states ∧
          reach.Shows g.leaves p.ending
            (watched.world.state.course.map
              Event.deed) := by
  intro routine plan g p watched
  have hFresh : g.IsFresh := by
    simp [g, IsFresh, Node.IsFresh, Node.AreFresh]
  have hStates :=
    run_states_of_reach routine plan g (.initial ()) hFresh
  exact ⟨hFresh, rfl, hStates.2.2.1⟩

end Group

end CommandScript
