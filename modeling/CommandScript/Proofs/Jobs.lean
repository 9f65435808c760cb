import CommandScript.Proofs.Routines
import CommandScript.Tree.Run

/-
  The run of a tree as the run of a list. Read in pre-order
  a tree is a list of jobs: its commands, and the groups
  that refuse to run. The groups around them add nothing to
  what a run comes to.

  Key definitions include:
    * `Job`
    * `Group.jobs`
    * `Job.run`
    * `Job.runAll`

  Main statements:
    * `Job.runAll_append`
    * `Node.runFrom_outcome`
    * `Group.run_outcome`
-/

namespace CommandScript

------------------------------------------------------------
-- Located Outcomes
------------------------------------------------------------

namespace CommandError

/- An error that has a location keeps it. -/
theorem located_of_location_ne_none
    {cause : CommandError}
    (location : Location)
    (hLocated : cause.location ≠ none) :
    cause.located location = cause := by
  cases cause with
  | raisedAt inner source => rfl
  | _ => exact absurd rfl hLocated

/- An error that has no location gets one. -/
theorem located_of_location_eq_none
    {cause : CommandError}
    (location : Location)
    (hBare : cause.location = none) :
    cause.located location = .raisedAt location cause := by
  cases cause with
  | raisedAt inner source => cases hBare
  | _ => rfl

/- Only the first location given to an error counts. -/
theorem located_located
    (cause : CommandError)
    (inner outer : Location) :
    (cause.located inner).located outer =
      cause.located inner := by
  apply located_of_location_ne_none
  cases cause <;> simp [located, location]

/- A location leaves the root cause as it is. -/
theorem rootCause_located
    (cause : CommandError)
    (location : Location) :
    (cause.located location).rootCause =
      cause.rootCause := by
  cases cause <;> rfl

end CommandError

/- Give the error of an ending a location. -/
def Ending.located
    (location : Location) : Ending → Ending
| .finished (.failed cause) =>
    .finished (.failed (cause.located location))
| .finished .succeeded => .finished .succeeded
| .dropped => .dropped

namespace Ending

/- Only the first location given to an ending counts. -/
theorem located_located
    (ending : Ending)
    (inner outer : Location) :
    (ending.located inner).located outer =
      ending.located inner := by
  cases ending with
  | dropped => rfl
  | finished result =>
      cases result with
      | succeeded => rfl
      | failed cause =>
          simp [located, CommandError.located_located]

/- A location does not tell a drop from a result. -/
theorem located_eq_dropped_iff
    {ending : Ending}
    {location : Location} :
    ending.located location = .dropped ↔
      ending = .dropped := by
  cases ending with
  | dropped => simp [located]
  | finished result => cases result <;> simp [located]

end Ending

namespace Outcome

variable {σ : Type}

/- Nothing is done, and that succeeds. -/
def pure (w : World σ) : Outcome σ :=
  ⟨.finished .succeeded, w⟩

/- Give the error of an outcome a location. -/
def located
    (location : Location)
    (o : Outcome σ) : Outcome σ :=
  ⟨o.ending.located location, o.world⟩

/- Go on after a success. -/
def andThen
    (next : World σ → Outcome σ)
    (o : Outcome σ) : Outcome σ :=
  match o.ending with
  | .finished .succeeded => next o.world
  | _ => o

/- What is run succeeds, or it stops all that follows. -/
theorem succeeds_or_stops
    (o : Outcome σ) :
    (∃ w, o = ⟨.finished .succeeded, w⟩) ∨
      o.ending ≠ .finished .succeeded := by
  by_cases hSucceeds : o.ending = .finished .succeeded
  · exact .inl ⟨o.world, by rw [← hSucceeds]⟩
  · exact .inr hSucceeds

/- Nothing follows what does not succeed. -/
theorem andThen_of_stops
    {o : Outcome σ}
    (next : World σ → Outcome σ)
    (hStops : o.ending ≠ .finished .succeeded) :
    o.andThen next = o := by
  unfold andThen
  split
  · exact absurd ‹_› hStops
  · rfl

theorem andThen_pure
    (o : Outcome σ) :
    o.andThen pure = o := by
  rcases o.succeeds_or_stops with ⟨w, rfl⟩ | hStops
  · rfl
  · exact andThen_of_stops pure hStops

theorem andThen_assoc
    (o : Outcome σ)
    (next later : World σ → Outcome σ) :
    (o.andThen next).andThen later =
      o.andThen fun w => (next w).andThen later := by
  rcases o.succeeds_or_stops with ⟨w, rfl⟩ | hStops
  · rfl
  · rw [andThen_of_stops _ hStops,
      andThen_of_stops _ hStops, andThen_of_stops _ hStops]

end Outcome

------------------------------------------------------------
-- Jobs
------------------------------------------------------------

/-
  What a run takes up in turn: a command, or a group that
  refuses to run.
-/
inductive Job (κ : Type) where
| perform (location : Location) (command : κ)
| refuse (line : Nat) (cause : CommandError)
deriving DecidableEq, Repr

namespace Node

variable {κ : Type}

mutual

/- The jobs of a node in pre-order. -/
def jobs : Node κ → List (Job κ)
| .leaf location command => [.perform location command]
| .group _ .idle children => jobsOfAll children
| .group line (.running _) _ =>
    [.refuse line .alreadyStarted]
| .group line .completed _ =>
    [.refuse line .alreadyCompleted]

/- The jobs of some nodes one after another. -/
def jobsOfAll : List (Node κ) → List (Job κ)
| [] => []
| node :: rest => node.jobs ++ jobsOfAll rest

end

end Node

/- The jobs of a group that has not been run. -/
def Group.jobs
    {κ : Type}
    (g : Group κ) : List (Job κ) :=
  Node.jobsOfAll g.children

namespace Job

variable {κ σ : Type}

/- Where a job comes from. -/
def location : Job κ → Location
| .perform location _ => location
| .refuse line _ => ⟨groupKind, line⟩

/- What a job comes to in a world. -/
def run
    (routine : κ → Routine σ)
    (plan : Plan) :
    Job κ → World σ → Outcome σ
| .perform _ command, w =>
    ((routine command).run plan [] w).outcome
| .refuse _ cause, w => ⟨.finished (.failed cause), w⟩

/- What jobs come to, up to the first that fails. -/
def runAll
    (routine : κ → Routine σ)
    (plan : Plan) :
    List (Job κ) → World σ → Outcome σ
| [], w => .pure w
| job :: rest, w =>
    ((job.run routine plan w).located
      job.location).andThen (runAll routine plan rest)

section Steps

variable {routine : κ → Routine σ} {plan : Plan}
variable {job : Job κ} {rest : List (Job κ)}
variable {w w' : World σ}

/- After a success the next jobs are run. -/
theorem runAll_cons_of_succeeds
    (hRun :
      job.run routine plan w = ⟨.finished .succeeded, w'⟩) :
    runAll routine plan (job :: rest) w =
      runAll routine plan rest w' := by
  rw [runAll, hRun]
  rfl

/- A job that does not succeed is the last. -/
theorem runAll_cons_of_stops
    (hStops :
      (job.run routine plan w).ending ≠
        .finished .succeeded) :
    runAll routine plan (job :: rest) w =
      (job.run routine plan w).located job.location := by
  rw [runAll]
  apply Outcome.andThen_of_stops
  generalize job.run routine plan w = o at hStops
  rcases o with ⟨ending, w'⟩
  cases ending with
  | dropped => simp [Outcome.located, Ending.located]
  | finished result =>
      cases result with
      | succeeded => exact absurd rfl hStops
      | failed cause =>
          simp [Outcome.located, Ending.located]

end Steps

variable (routine : κ → Routine σ) (plan : Plan)

/- Jobs that follow others are run after their success. -/
theorem runAll_append
    (early late : List (Job κ))
    (w : World σ) :
    runAll routine plan (early ++ late) w =
      (runAll routine plan early w).andThen
        (runAll routine plan late) := by
  induction early generalizing w with
  | nil => rfl
  | cons job early ih =>
      have hNext :
          runAll routine plan (early ++ late) =
            fun w' =>
              (runAll routine plan early w').andThen
                (runAll routine plan late) := by
        funext w'
        exact ih w'
      simp only [List.cons_append, runAll, hNext,
        Outcome.andThen_assoc]

/- An error that comes out of jobs has a location. -/
theorem runAll_located
    (jobs : List (Job κ))
    (location : Location)
    (w : World σ) :
    (runAll routine plan jobs w).located location =
      runAll routine plan jobs w := by
  induction jobs generalizing w with
  | nil => rfl
  | cons job jobs ih =>
      rcases (job.run routine plan w).succeeds_or_stops with
        ⟨w', hRun⟩ | hStops
      · rw [runAll_cons_of_succeeds hRun]
        exact ih w'
      · rw [runAll_cons_of_stops hStops, Outcome.located,
          Outcome.located, Ending.located_located]

end Job

------------------------------------------------------------
-- Runs of Trees
------------------------------------------------------------

/- What a passage comes to, its log and subject aside. -/
def Passage.outcome
    {τ σ : Type}
    (p : Passage τ σ) : Outcome σ :=
  ⟨p.ending, p.world⟩

namespace Node

variable {κ σ : Type}
variable (routine : κ → Routine σ) (plan : Plan)

/- Children are run one after another. -/
theorem runFrom_cons_outcome
    (path : List Location)
    (index : Nat)
    (node : Node κ)
    (rest : List (Node κ))
    (w : World σ) :
    (runFrom routine plan path index (node :: rest)
        w).outcome =
      ((node.run routine plan (path ++ [node.location])
          w).outcome.located node.location).andThen
        fun w' =>
          (runFrom routine plan path (index + 1) rest
            w').outcome := by
  simp only [runFrom]
  generalize
    node.run routine plan (path ++ [node.location]) w = p
  rcases p with ⟨subject, ending, w', log⟩
  cases ending with
  | dropped => rfl
  | finished result => cases result <;> rfl

mutual

/- A node comes to what its jobs come to. -/
theorem run_outcome
    (path : List Location)
    (node : Node κ)
    (w : World σ) :
    (node.run routine plan path w).outcome.located
        node.location =
      Job.runAll routine plan node.jobs w := by
  cases node with
  | leaf location command =>
      have hPath :=
        (routine command).run_outcome_path plan path [] w
      simp only [jobs, Job.runAll, Job.run,
        Job.location, ← hPath]
      exact (Outcome.andThen_pure _).symm
  | group line state children =>
      cases state with
      | running index => simp only [run]; rfl
      | completed => simp only [run]; rfl
      | idle =>
          have hChildren :=
            runFrom_outcome path 0 children w
          have hLocated :=
            Job.runAll_located routine plan
              (jobsOfAll children) ⟨groupKind, line⟩ w
          simp only [run, jobs]
          exact
            (congrArg (Outcome.located ⟨groupKind, line⟩)
              hChildren).trans hLocated

/- Nodes come to what their jobs come to. -/
theorem runFrom_outcome
    (path : List Location)
    (index : Nat)
    (nodes : List (Node κ))
    (w : World σ) :
    (runFrom routine plan path index nodes w).outcome =
      Job.runAll routine plan (jobsOfAll nodes) w := by
  cases nodes with
  | nil => simp only [runFrom]; rfl
  | cons node rest =>
      rw [runFrom_cons_outcome,
        run_outcome (path ++ [node.location]) node w,
        jobsOfAll, Job.runAll_append]
      congr 1
      funext w'
      exact runFrom_outcome path (index + 1) rest w'

end

end Node

namespace Group

variable {κ σ : Type}

/- The run of an idle group is that of its children. -/
theorem run_of_idle
    {g : Group κ}
    (routine : κ → Routine σ)
    (plan : Plan)
    (w : World σ)
    (hIdle : g.state = .idle) :
    g.run routine plan w =
      Node.runFrom routine plan [] 0 g.children w := by
  simp [run, hIdle]

/- An idle group comes to what its jobs come to. -/
theorem run_outcome
    {g : Group κ}
    (routine : κ → Routine σ)
    (plan : Plan)
    (w : World σ)
    (hIdle : g.state = .idle) :
    (g.run routine plan w).outcome =
      Job.runAll routine plan g.jobs w := by
  rw [run_of_idle routine plan w hIdle]
  exact Node.runFrom_outcome routine plan [] 0 g.children w

end Group

end CommandScript
