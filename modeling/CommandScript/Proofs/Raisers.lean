import CommandScript.Builtin
import CommandScript.Diagnostic
import CommandScript.Proofs.Jobs
import CommandScript.Proofs.Words

/-
  Where an error was raised. An error is a root cause with
  locations around it, and the innermost of them is that of
  the command that raised the cause. What an error gives as
  its location is the outermost one. The two are the same in
  every error of a run, unless commands report errors that
  have several locations already, which no built-in command
  does.

  Key definitions include:
    * `CommandError.layers`
    * `CommandError.IsRaisedAt`
    * `Routine.Reports`
    * `Diagnostic.raisedHeadline`
    * `Diagnostic.NamesRaiser`

  Main statements:
    * `CommandError.isRaisedAt_iff`
    * `Builtin.reports_bare`
    * `Group.length_layers_of_run`
    * `Diagnostic.runFailed_names_raiser_iff`
-/

namespace CommandScript

------------------------------------------------------------
-- Layers of Locations
------------------------------------------------------------

namespace CommandError

/- The locations of an error, the outermost one first. -/
def layers : CommandError → List Location
| .raisedAt location source => location :: source.layers
| _ => []

/-
  The innermost location of an error is the one right around
  its root cause. There may be others around it.
-/
def IsRaisedAt
    (cause : CommandError)
    (location : Location) : Prop :=
  ∃ outer : List Location,
    cause =
      outer.foldr .raisedAt
        (.raisedAt location cause.rootCause)

/- Locations that are put around an error come first. -/
theorem layers_foldr
    (outer : List Location)
    (cause : CommandError) :
    (outer.foldr .raisedAt cause).layers =
      outer ++ cause.layers := by
  induction outer with
  | nil => rfl
  | cons location outer ih =>
      rw [List.foldr_cons, layers, ih, List.cons_append]

/- A root cause is an error without a location. -/
theorem layers_rootCause
    (cause : CommandError) :
    cause.rootCause.layers = [] := by
  induction cause with
  | raisedAt location source ih => exact ih
  | _ => rfl

/- An error is its root cause with its locations around. -/
theorem eq_foldr_layers
    (cause : CommandError) :
    cause =
      cause.layers.foldr .raisedAt cause.rootCause := by
  induction cause with
  | raisedAt location source ih =>
      exact congrArg (raisedAt location) ih
  | _ => rfl

/- What is given as the location is the outermost one. -/
theorem location_eq_head?
    (cause : CommandError) :
    cause.location = cause.layers.head? := by
  cases cause <;> rfl

theorem location_eq_none_iff
    {cause : CommandError} :
    cause.location = none ↔ cause.layers = [] := by
  rw [location_eq_head?, List.head?_eq_none_iff]

/- Errors are raised at the last of their locations. -/
theorem isRaisedAt_iff
    {cause : CommandError}
    {location : Location} :
    cause.IsRaisedAt location ↔
      cause.layers.getLast? = some location := by
  rw [List.getLast?_eq_some_iff]
  apply exists_congr
  intro outer
  constructor
  · intro hCause
    have hLayers := congrArg layers hCause
    rw [layers_foldr, layers, layers_rootCause] at hLayers
    exact hLayers
  · intro hLayers
    have hCause := cause.eq_foldr_layers
    rw [hLayers, List.foldr_append] at hCause
    exact hCause

/- One location is both the outermost and the innermost. -/
theorem exists_isRaisedAt
    {cause : CommandError}
    (hOne : cause.layers.length = 1) :
    ∃ location,
      cause.IsRaisedAt location ∧
        cause.location = some location := by
  rcases List.length_eq_one_iff.mp hOne with
    ⟨location, hLayers⟩
  refine ⟨location, ?_, ?_⟩
  · rw [isRaisedAt_iff, hLayers]
    rfl
  · rw [location_eq_head?, hLayers]
    rfl

/- An error with one location at most is given one. -/
theorem length_layers_located
    {cause : CommandError}
    (location : Location)
    (hFew : cause.layers.length ≤ 1) :
    (cause.located location).layers.length = 1 := by
  cases hLocation : cause.location with
  | none =>
      have hNone := location_eq_none_iff.mp hLocation
      rw [located_of_location_eq_none location hLocation,
        layers, hNone]
      rfl
  | some outermost =>
      have hSome : cause.location ≠ none := by
        simp [hLocation]
      have hLayers : cause.layers ≠ [] :=
        hSome ∘ location_eq_none_iff.mpr
      have hLength := List.length_pos_iff.mpr hLayers
      rw [located_of_location_ne_none location hSome]
      omega

end CommandError

------------------------------------------------------------
-- Errors of Commands
------------------------------------------------------------

namespace Routine

variable {σ : Type}

/- Whatever error a routine ends with has a property. -/
def Reports
    (property : CommandError → Prop) : Routine σ → Prop
| .finish .succeeded => True
| .finish (.failed own) => property own
| .look next => ∀ w, (next w).Reports property
| .act _ next => next.Reports property
| .note _ next => next.Reports property
| .sleep _ _ next => next.Reports property

variable {property : CommandError → Prop}
variable {routine : Routine σ}

theorem Reports.of_run_failed
    {plan : Plan}
    {path : List Location}
    {w : World σ}
    {own : CommandError}
    (hReports : routine.Reports property)
    (hFailed :
      (routine.run plan path w).ending =
        .finished (.failed own)) :
    property own := by
  induction routine generalizing w with
  | finish result =>
      cases result with
      | succeeded => cases hFailed
      | failed cause =>
          cases hFailed
          exact hReports
  | look next ih => exact ih w (hReports w) hFailed
  | act change next ih => exact ih hReports hFailed
  | note remark next ih => exact ih hReports hFailed
  | sleep length wakes next ih =>
      cases hSleep :
          (w.sleep plan length wakes).dropped with
      | true =>
          rw [run_sleep_of_dropped hSleep] at hFailed
          cases hFailed
      | false =>
          rw [run_sleep_of_awake hSleep] at hFailed
          exact ih hReports hFailed

theorem Reports.unlessCancelled
    (hCancelled : property .cancelled)
    (hReports : routine.Reports property) :
    (unlessCancelled routine).Reports property := by
  intro w
  dsimp only
  split
  · exact hCancelled
  · exact hReports

end Routine

/- No built-in command says itself where it failed. -/
theorem Builtin.reports_bare
    {σ : Type}
    [Sink σ]
    (command : Builtin) :
    (command.routine : Routine σ).Reports fun own =>
      own.layers = [] := by
  have hSink (attempt : Except SinkError σ) :
      (ofSink attempt).Reports fun own =>
        own.layers = [] := by
    cases attempt with
    | ok state => trivial
    | error cause => rfl
  cases command with
  | print message =>
      exact .unlessCancelled rfl fun w => hSink _
  | clear => exact .unlessCancelled rfl fun w => hSink _
  | delay duration =>
      exact
        .unlessCancelled rfl (.unlessCancelled rfl trivial)
  | fail message => rfl

------------------------------------------------------------
-- Errors of Runs
------------------------------------------------------------

section Runs

variable {κ σ : Type}
variable {routine : κ → Routine σ} {plan : Plan}
variable {error : CommandError}

/- The error of jobs is that of one, with a location. -/
theorem Job.exists_of_runAll_failed
    {jobs : List (Job κ)}
    {w : World σ}
    (hFailed :
      (runAll routine plan jobs w).ending =
        .finished (.failed error)) :
    ∃ job ∈ jobs,
      ∃ (w' : World σ) (own : CommandError),
        (job.run routine plan w').ending =
            .finished (.failed own) ∧
          error = own.located job.location := by
  induction jobs generalizing w with
  | nil => cases hFailed
  | cons job jobs ih =>
      rcases (job.run routine plan w).succeeds_or_stops with
        ⟨w', hRun⟩ | hStops
      · rw [runAll_cons_of_succeeds hRun] at hFailed
        rcases ih hFailed with ⟨later, hLater, hOwn⟩
        exact ⟨later, List.mem_cons_of_mem _ hLater, hOwn⟩
      · rw [runAll_cons_of_stops hStops] at hFailed
        refine ⟨job, List.mem_cons_self, w, ?_⟩
        generalize job.run routine plan w = o at hFailed ⊢
        rcases o with ⟨ending, w'⟩
        cases ending with
        | dropped => cases hFailed
        | finished result =>
            cases result with
            | succeeded => cases hFailed
            | failed own =>
                cases hFailed
                exact ⟨own, rfl, rfl⟩

namespace Node

mutual

/- A group that refuses to run does not say where. -/
theorem layers_of_refuse_mem_jobs
    {node : Node κ}
    {line : Nat}
    {cause : CommandError}
    (hMem : .refuse line cause ∈ node.jobs) :
    cause.layers = [] := by
  cases node with
  | leaf location command => simp [jobs] at hMem
  | group line' state children =>
      cases state with
      | idle =>
          rw [jobs] at hMem
          exact layers_of_refuse_mem_jobsOfAll hMem
      | running index | completed =>
          rw [jobs] at hMem
          cases List.mem_singleton.mp hMem
          rfl

/- Groups that refuse to run do not say where. -/
theorem layers_of_refuse_mem_jobsOfAll
    {nodes : List (Node κ)}
    {line : Nat}
    {cause : CommandError}
    (hMem : .refuse line cause ∈ jobsOfAll nodes) :
    cause.layers = [] := by
  cases nodes with
  | nil => simp [jobsOfAll] at hMem
  | cons node rest =>
      rw [jobsOfAll] at hMem
      rcases List.mem_append.mp hMem with hMem | hMem
      · exact layers_of_refuse_mem_jobs hMem
      · exact layers_of_refuse_mem_jobsOfAll hMem

end

end Node

/-
  If no command in it reports an error with several
  locations, the error of the run of a group has just one.
-/
theorem Group.length_layers_of_run
    {g : Group κ}
    {w : World σ}
    (hIdle : g.state = .idle)
    (hFew :
      ∀ location command,
        .perform location command ∈ g.jobs →
          ∀ (path : List Location) (w' : World σ) own,
            ((routine command).run plan path w').ending =
                .finished (.failed own) →
              own.layers.length ≤ 1)
    (hFailed :
      (g.run routine plan w).ending =
        .finished (.failed error)) :
    error.layers.length = 1 := by
  have hJobs :
      (Job.runAll routine plan g.jobs w).ending =
        .finished (.failed error) := by
    rw [← run_outcome routine plan w hIdle]
    exact hFailed
  rcases Job.exists_of_runAll_failed hJobs with
    ⟨job, hJob, w', own, hOwn, rfl⟩
  apply CommandError.length_layers_located
  cases job with
  | perform location command =>
      exact hFew location command hJob [] w' own hOwn
  | refuse line cause =>
      cases hOwn
      have hNone :=
        Node.layers_of_refuse_mem_jobsOfAll hJob
      simp [hNone]

end Runs

------------------------------------------------------------
-- Reports of Failed Runs
------------------------------------------------------------

namespace Diagnostic

/- The headline that names a location for a root cause. -/
def raisedHeadline
    (script : String)
    (location : Location)
    (root : CommandError) : String :=
  script ++ ":" ++ toString location.line ++ ": " ++
    location.kind ++ " failed: " ++ root.message

/- A headline names one location only. -/
theorem raisedHeadline_inj
    {script : String}
    {location location' : Location}
    {root : CommandError} :
    raisedHeadline script location root =
        raisedHeadline script location' root ↔
      location = location' := by
  constructor
  · intro hHeadline
    have hColon (rest : List Char) :
        Text.StopsAt Char.isDigit (": ".toList ++ rest) :=
      Text.stopsAt_append (by decide)
        (Text.stopsAt_cons.mpr (by decide))
    have hText := congrArg String.toList hHeadline
    simp only [raisedHeadline, String.toList_append,
      List.append_assoc, List.append_cancel_left_eq,
      Nat.toString_eq_ofList_toDigits, String.toList_ofList]
      at hText
    -- The digits of the line end at the colon behind them.
    rcases Text.eq_of_toDigits_append_eq (hColon _)
        (hColon _) hText with
      ⟨hLine, hRest⟩
    have hKind := List.append_cancel_left hRest
    rw [List.append_cancel_right_eq, String.toList_inj]
      at hKind
    rcases location with ⟨_, _⟩
    rcases location' with ⟨_, _⟩
    cases hKind
    cases hLine
    rfl
  · rintro rfl
    rfl

/- The location that an error gives is the one named. -/
theorem headline_of_location
    {cause : CommandError}
    {location : Location}
    (script : String)
    (hLocation : cause.location = some location) :
    (runFailed script cause).headline =
      raisedHeadline script location cause.rootCause := by
  simp only [runFailed, runHeadline, hLocation]
  rfl

/- An error and its report give where it was raised. -/
def NamesRaiser
    (script : String)
    (cause : CommandError) : Prop :=
  ∃ location,
    cause.IsRaisedAt location ∧
      cause.location = some location ∧
        (runFailed script cause).headline =
          raisedHeadline script location cause.rootCause

theorem namesRaiser_of_length
    {cause : CommandError}
    (script : String)
    (hOne : cause.layers.length = 1) :
    NamesRaiser script cause := by
  rcases CommandError.exists_isRaisedAt hOne with
    ⟨location, hRaised, hLocation⟩
  exact
    ⟨location, hRaised, hLocation,
      headline_of_location script hLocation⟩

/-
  Which location an error gives, and which one a report of
  it names along with the root cause. An error has none if
  there is none around its root cause. Else it was raised at
  the innermost one, and this is the one that is given and
  named exactly if the outermost one is the same. So it is
  in every error of a run, if no command in the tree reports
  errors with several locations. No built-in command does.
-/
theorem runFailed_names_raiser_iff
    (cause : CommandError)
    (script : String) :
    cause = cause.layers.foldr .raisedAt cause.rootCause ∧
    cause.rootCause.location = none ∧
    (cause.location = none ↔ cause.layers = []) ∧
    (cause.location = none ↔
      ∀ location, ¬ cause.IsRaisedAt location) ∧
    (∀ location,
      cause.IsRaisedAt location →
        (∀ other,
          cause.IsRaisedAt other ↔ other = location) ∧
        (cause.location = some location ↔
          cause.layers.head? = some location) ∧
        ((runFailed script cause).headline =
            raisedHeadline script location
              cause.rootCause ↔
          cause.layers.head? = some location)) ∧
    (∀ {κ σ : Type} (routine : κ → Routine σ) (plan : Plan)
        (g : Group κ) (w : World σ),
      g.state = .idle →
      (∀ location command,
        .perform location command ∈ g.jobs →
          ∀ (path : List Location) (w' : World σ) own,
            ((routine command).run plan path w').ending =
                .finished (.failed own) →
              own.layers.length ≤ 1) →
      (g.run routine plan w).ending =
          .finished (.failed cause) →
        NamesRaiser script cause) ∧
    ∀ {σ : Type} [Sink σ] (plan : Plan)
        (g : Group Builtin) (w : World σ),
      g.state = .idle →
      (g.run Builtin.routine plan w).ending =
          .finished (.failed cause) →
        NamesRaiser script cause := by
  have hNone :
      cause.location = none ↔ cause.layers = [] :=
    CommandError.location_eq_none_iff
  refine
    ⟨cause.eq_foldr_layers,
      CommandError.location_eq_none_iff.mpr
        cause.layers_rootCause,
      hNone, ?_, ?_, ?_, ?_⟩
  · simp only [CommandError.isRaisedAt_iff]
    rw [hNone, ← List.getLast?_eq_none_iff,
      Option.eq_none_iff_forall_ne_some]
  · intro location hRaised
    have hLast := CommandError.isRaisedAt_iff.mp hRaised
    have hGiven :
        cause.location = some location ↔
          cause.layers.head? = some location := by
      rw [cause.location_eq_head?]
    refine ⟨?_, hGiven, ?_⟩
    · intro other
      rw [CommandError.isRaisedAt_iff, hLast,
        Option.some.injEq, eq_comm]
    · cases hLocation : cause.location with
      | none =>
          rw [hNone.mp hLocation] at hLast
          cases hLast
      | some outermost =>
          rw [headline_of_location script hLocation,
            raisedHeadline_inj, ← cause.location_eq_head?,
            hLocation, Option.some.injEq]
  · intro κ σ routine plan g w hIdle hFew hFailed
    exact
      namesRaiser_of_length script
        (Group.length_layers_of_run hIdle hFew hFailed)
  · intro σ _ plan g w hIdle hFailed
    apply namesRaiser_of_length script
    refine Group.length_layers_of_run hIdle ?_ hFailed
    intro location command _ path w' own hOwn
    have hBare := command.reports_bare.of_run_failed hOwn
    simp [hBare]

/- A command in a nested group says where it failed. -/
theorem runFailed_names_raiser_in_nested_group :
    let own : CommandError :=
      .raisedAt ⟨"probe", 7⟩ (.failed "no")
    let routine (fails : Bool) : Routine Unit :=
      if fails then .fail own else .succeed
    let g : Group Bool :=
      ⟨.idle,
        [ .leaf ⟨"step", 1⟩ false,
          .group 2 .idle [.leaf ⟨"step", 3⟩ true] ]⟩
    let p := g.run routine .undisturbed (.initial ())
    g.state = .idle ∧
      (∀ location fails,
        .perform location fails ∈ g.jobs →
          ∀ (path : List Location) (w : World Unit) cause,
            ((routine fails).run .undisturbed path
                w).ending =
                .finished (.failed cause) →
              cause.layers.length ≤ 1) ∧
      p.ending = .finished (.failed own) ∧
      NamesRaiser "demo" own := by
  intro own routine g p
  have hFew
      (location : Location)
      (fails : Bool)
      (_ : .perform location fails ∈ g.jobs)
      (path : List Location)
      (w : World Unit)
      (cause : CommandError)
      (hFailed :
        ((routine fails).run .undisturbed path w).ending =
          .finished (.failed cause)) :
      cause.layers.length ≤ 1 := by
    cases fails with
    | false => cases hFailed
    | true =>
        cases hFailed
        decide
  have hEnding : p.ending = .finished (.failed own) := rfl
  rcases runFailed_names_raiser_iff own "demo" with
    ⟨_, _, _, _, _, hRun, _⟩
  exact
    ⟨rfl, hFew, hEnding,
      hRun routine .undisturbed g (.initial ()) rfl hFew
        hEnding⟩

/- A location around another one hides who was to blame. -/
theorem not_location_of_raiser :
    ¬ ∀ (cause : CommandError) (location : Location),
      cause.IsRaisedAt location →
        cause.location = some location := by
  intro hGiven
  let cause : CommandError :=
    .raisedAt ⟨"group", 2⟩
      (.raisedAt ⟨"fail", 4⟩ (.failed "boom"))
  have hRaised : cause.IsRaisedAt ⟨"fail", 4⟩ :=
    ⟨[⟨"group", 2⟩], rfl⟩
  have hOutermost :
      cause.location ≠ some ⟨"fail", 4⟩ := by decide
  exact hOutermost (hGiven cause ⟨"fail", 4⟩ hRaised)

end Diagnostic

end CommandScript
