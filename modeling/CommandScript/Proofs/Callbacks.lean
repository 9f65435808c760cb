import CommandScript.Proofs.FirstFailure
import CommandScript.Session

/-
  What actions do to the world of a session, and when they
  call back. A callback acts on the state after a run that
  ends, with the result of the run. So if all callbacks
  write down what they get, and nothing else touches what is
  written, then the results of the runs that have ended are
  there, each of them once and in order.

  Key definitions include:
    * `Effect`
    * `Action.result?`
    * `Action.Notes`
    * `Session.results`

  Main statements:
    * `Group.run_keeps`
    * `Session.perform_effect`
    * `Session.runThen_of_ran`
    * `Session.history_notes`
-/

namespace CommandScript

------------------------------------------------------------
-- What Runs Keep
------------------------------------------------------------

section Runs

variable {κ σ : Type}
variable {routine : κ → Routine σ}
variable {plan : Plan}
variable {P : World σ → Prop}
variable {w : World σ}

/- What commands keep is kept by a list of jobs. -/
theorem Job.runAll_keeps
    (hCommands :
      ∀ command w, P w →
        P ((routine command).run plan [] w).world)
    (jobs : List (Job κ))
    (hStart : P w) :
    P (Job.runAll routine plan jobs w).world := by
  induction jobs generalizing w with
  | nil => exact hStart
  | cons job jobs ih =>
      have hJob : P (job.run routine plan w).world := by
        cases job with
        | refuse line cause => exact hStart
        | perform location command =>
            exact hCommands command w hStart
      rcases (job.run routine plan w).succeeds_or_stops
        with ⟨w', hRun⟩ | hStops
      · rw [runAll_cons_of_succeeds hRun]
        rw [hRun] at hJob
        exact ih hJob
      · rw [runAll_cons_of_stops hStops]
        exact hJob

/- What commands keep is kept by a tree of them. -/
theorem Group.run_keeps
    (hCommands :
      ∀ command w, P w →
        P ((routine command).run plan [] w).world)
    (g : Group κ)
    (hStart : P w) :
    P (g.run routine plan w).world := by
  cases hState : g.state with
  | running index =>
      simp only [run, hState]
      exact hStart
  | completed =>
      simp only [run, hState]
      exact hStart
  | idle =>
      have hJobs :=
        Job.runAll_keeps hCommands g.jobs hStart
      rw [← g.run_outcome routine plan w hState] at hJobs
      exact hJobs

end Runs

------------------------------------------------------------
-- Actions and the World
------------------------------------------------------------

/-
  What an action does to the world of a session, and how it
  is answered.
-/
inductive Effect
    {κ σ : Type}
    (routine : κ → Routine σ)
    (s : Session κ σ) :
    Action κ σ → World σ → Answer κ → Prop where
| still
    {action : Action κ σ}
    {answer : Answer κ}
    (hAnswer : ∀ report, answer ≠ .ran report) :
    Effect routine s action s.world answer
| ran
    {id : String}
    {cancelAfter dropAfter : Option Nat}
    {g : Group κ}
    {p : Passage (Group κ) σ}
    (hGroup : s.groups.get? id = some g)
    (hRun :
      g.run routine (s.plan cancelAfter dropAfter) s.world =
        p) :
    Effect routine s (.run id cancelAfter dropAfter) p.world
      (.ran (s.report p))
| called
    {id : String}
    (onComplete : CommandResult → σ → σ)
    {cancelAfter dropAfter : Option Nat}
    {g : Group κ}
    {p : Passage (Group κ) σ}
    (hGroup : s.groups.get? id = some g)
    (hRun :
      g.run routine (s.plan cancelAfter dropAfter) s.world =
        p) :
    Effect routine s
      (.runThen id onComplete cancelAfter dropAfter)
      (p.callBack onComplete).world
      (.ran (s.report p))
| cancelled : Effect routine s .cancel s.world.cancel .done
| awaited
    (length : Nat)
    (hLive : s.world.cancelled = false) :
    Effect routine s (.await length)
      (s.world.advance (s.world.clock + length))
      (.cancelled false)
| altered (change : σ → σ) :
    Effect routine s (.alter change) (s.world.alter change)
      .done

namespace Session

variable {κ σ : Type}
variable {routine : κ → Routine σ}
variable {s : Session κ σ}
variable {id : String}
variable {g : Group κ}
variable {cancelAfter dropAfter : Option Nat}

/- A run of a group that is there. -/
theorem run_of_get?
    (hGroup : s.groups.get? id = some g) :
    let p :=
      g.run routine (s.plan cancelAfter dropAfter) s.world
    s.perform routine (.run id cancelAfter dropAfter) =
      ( { (s.put id p.subject).logged p.log with
          world := p.world },
        .ran (s.report p) ) := by
  simp only [perform, runBy, hGroup]

/- A callback only changes the state, if there is a call. -/
theorem runThen_of_get?
    (hGroup : s.groups.get? id = some g)
    (onComplete : CommandResult → σ → σ) :
    let p :=
      g.run routine (s.plan cancelAfter dropAfter) s.world
    s.perform routine
        (.runThen id onComplete cancelAfter dropAfter) =
      ( { (s.put id p.subject).logged p.log with
          world := (p.callBack onComplete).world },
        .ran (s.report p) ) := by
  simp only [perform, runBy, hGroup, Group.runThen]
  generalize
    g.run routine (s.plan cancelAfter dropAfter) s.world = p
  rcases p.callBack_cases onComplete with
    ⟨result, _, hCalled⟩ | ⟨_, hCalled⟩
  · rw [hCalled]
    rfl
  · rw [hCalled]

/- Everything that an action can do to the world. -/
theorem perform_effect
    (routine : κ → Routine σ)
    (s : Session κ σ)
    (action : Action κ σ) :
    Effect routine s action
      (s.perform routine action).1.world
      (s.perform routine action).2 := by
  have hPush
      (t : Session κ σ)
      (hWorld : t.world = s.world)
      (id : String)
      (node : Node κ) :
      Effect routine s action (t.push id node).1.world
        (t.push id node).2 := by
    unfold push
    cases t.groups.get? id <;>
      · change Effect routine s action t.world _
        rw [hWorld]
        exact .still nofun
  cases action with
  | create id => exact .still nofun
  | parse id text dialect =>
      unfold perform parse
      simp only
      cases (⟨s.registry, dialect⟩ : Language κ).parse
        text with
      | ok g => exact .still nofun
      | error halt => cases halt <;> exact .still nofun
  | inspect id =>
      unfold perform
      simp only
      cases s.groups.get? id <;> exact .still nofun
  | push id location command => exact hPush s rfl id _
  | construct id location params =>
      unfold perform construct
      simp only
      rcases s.registry.construct location.kind params with
        _ | (_ | _) | command
      · exact .still nofun
      · exact .still nofun
      · exact .still nofun
      · exact hPush s rfl id _
  | nest id child line =>
      unfold perform nest
      simp only
      cases s.groups.get? child with
      | none => exact .still nofun
      | some g =>
          let taken : Session κ σ :=
            { s with groups := s.groups.erase child }
          exact hPush taken rfl id (g.toNode line)
  | run id cancelAfter dropAfter =>
      cases hGroup : s.groups.get? id with
      | none =>
          simp only [perform, runBy, hGroup]
          exact .still nofun
      | some g =>
          rw [run_of_get? hGroup]
          exact .ran hGroup rfl
  | runThen id onComplete cancelAfter dropAfter =>
      cases hGroup : s.groups.get? id with
      | none =>
          simp only [perform, runBy, hGroup]
          exact .still nofun
      | some g =>
          rw [runThen_of_get? hGroup]
          exact .called onComplete hGroup rfl
  | register kind constructor => exact .still nofun
  | cancel => exact .cancelled
  | await length =>
      unfold perform await
      simp only
      cases hLive : s.world.cancelled with
      | true => exact .still nofun
      | false => exact .awaited length hLive
  | alter change => exact .altered change

------------------------------------------------------------
-- One Call for One Run
------------------------------------------------------------

/- A run ends with a result, unless it is to be dropped. -/
theorem ending_of_run
    {report : RunReport}
    (hAnswer :
      (s.perform routine
          (.run id cancelAfter dropAfter)).2 =
        .ran report) :
    (∃ result, report.ending = .finished result) ∨
      (report.ending = .dropped ∧ dropAfter ≠ none) := by
  cases hGroup : s.groups.get? id with
  | none =>
      simp only [perform, runBy, hGroup] at hAnswer
      cases hAnswer
  | some g =>
      rw [run_of_get? hGroup] at hAnswer
      cases hAnswer
      simp only [report]
      cases hEnding :
          (g.run routine (s.plan cancelAfter dropAfter)
            s.world).ending with
      | finished result => exact .inl ⟨result, rfl⟩
      | dropped =>
          refine .inr ⟨rfl, ?_⟩
          rintro rfl
          exact g.run_not_dropped routine s.world rfl hEnding

/-
  A run with a callback is the run without it, and then one
  call with the result, or none if the run was dropped.
-/
theorem runThen_of_ran
    {report : RunReport}
    (hAnswer :
      (s.perform routine
          (.run id cancelAfter dropAfter)).2 =
        .ran report)
    (onComplete : CommandResult → σ → σ) :
    let ran :=
      s.perform routine (.run id cancelAfter dropAfter)
    let called :=
      s.perform routine
        (.runThen id onComplete cancelAfter dropAfter)
    (∃ result,
      report.ending = .finished result ∧
        called =
          ( (ran.1.perform routine
              (.alter (onComplete result))).1,
            .ran report )) ∨
      (report.ending = .dropped ∧ dropAfter ≠ none ∧
        called = ran) := by
  have hEnds := ending_of_run hAnswer
  cases hGroup : s.groups.get? id with
  | none =>
      simp only [perform, runBy, hGroup] at hAnswer
      cases hAnswer
  | some g =>
      rw [run_of_get? hGroup] at hAnswer ⊢
      rw [runThen_of_get? hGroup]
      cases hAnswer
      generalize
        g.run routine (s.plan cancelAfter dropAfter)
          s.world = p at hEnds ⊢
      rcases p.callBack_cases onComplete with
        ⟨result, hEnding, hCalled⟩ | ⟨hEnding, hCalled⟩
      · refine .inl ⟨result, hEnding, ?_⟩
        simp only [hCalled]
        rfl
      · refine .inr ⟨hEnding, ?_, ?_⟩
        · rcases hEnds with ⟨_, hFinished⟩ | ⟨_, hDrop⟩
          · cases hFinished.symm.trans hEnding
          · exact hDrop
        · simp only [hCalled]

end Session

------------------------------------------------------------
-- All Calls of a History
------------------------------------------------------------

namespace Ending

/- The result with which a run has ended, if it has. -/
def result? : Ending → Option CommandResult
| .finished result => some result
| .dropped => none

end Ending

namespace Action

variable {κ σ : Type}

/- The result of a run that is to call back. -/
def result? :
    Action κ σ → Answer κ → Option CommandResult
| .runThen _ _ _ _, .ran report => report.ending.result?
| _, _ => none

/-
  A callback adds what it gets to the results that are heard
  of in the state. Other changes from outside leave them.
-/
def Notes
    (heard : σ → List CommandResult) : Action κ σ → Prop
| .runThen _ onComplete _ _ =>
    ∀ result state,
      heard (onComplete result state) =
        heard state ++ [result]
| .alter change =>
    ∀ state, heard (change state) = heard state
| _ => True

end Action

section Calls

variable {κ σ : Type}
variable {routine : κ → Routine σ}
variable {heard : σ → List CommandResult}
variable {s : Session κ σ}

/- The result of a run is heard of after the run. -/
theorem Passage.heard_callBack
    {τ : Type}
    {onComplete : CommandResult → σ → σ}
    (hNotes :
      ∀ result state,
        heard (onComplete result state) =
          heard state ++ [result])
    (p : Passage τ σ) :
    heard (p.callBack onComplete).world.state =
      heard p.world.state ++ p.ending.result?.toList := by
  rcases p.callBack_cases onComplete with
    ⟨result, hEnding, hCalled⟩ | ⟨hEnding, hCalled⟩
  · rw [hCalled, hEnding]
    exact hNotes result _
  · rw [hCalled, hEnding]
    exact (List.append_nil _).symm

/- One action adds the result of its run, or nothing. -/
theorem Effect.notes
    {action : Action κ σ}
    {w : World σ}
    {answer : Answer κ}
    (hEffect : Effect routine s action w answer)
    (hCommands :
      ∀ command plan w,
        heard
            ((routine command).run plan [] w).world.state =
          heard w.state)
    (hNotes : action.Notes heard) :
    heard w.state =
      heard s.world.state ++
        (action.result? answer).toList := by
  have hKept
      {g : Group κ}
      {plan : Plan}
      {p : Passage (Group κ) σ}
      (hRun : g.run routine plan s.world = p) :
      heard p.world.state = heard s.world.state := by
    rw [← hRun]
    refine
      Group.run_keeps
        (P := fun w => heard w.state = heard s.world.state)
        ?_ g rfl
    intro command w hSame
    exact (hCommands command plan w).trans hSame
  cases hEffect with
  | still hAnswer =>
      have hNone : action.result? answer = none := by
        unfold Action.result?
        split
        · exact absurd rfl (hAnswer _)
        · rfl
      rw [hNone]
      exact (List.append_nil _).symm
  | ran hGroup hRun =>
      exact (hKept hRun).trans (List.append_nil _).symm
  | @called _ _ _ _ _ p hGroup hRun =>
      rw [p.heard_callBack hNotes, hKept hRun]
      rfl
  | cancelled => exact (List.append_nil _).symm
  | awaited length hLive => exact (List.append_nil _).symm
  | altered change =>
      exact (hNotes _).trans (List.append_nil _).symm

namespace Session

/- The results of the runs that call back and have ended. -/
def results
    (routine : κ → Routine σ)
    (s : Session κ σ)
    (actions : List (Action κ σ)) : List CommandResult :=
  (Steps.exchanges (perform routine) s actions).filterMap
    fun x => x.task.result? x.reply

/- All results are heard of, each once and in order. -/
theorem history_notes
    (hCommands :
      ∀ command plan w,
        heard
            ((routine command).run plan [] w).world.state =
          heard w.state)
    {actions : List (Action κ σ)}
    (hActions : ∀ action ∈ actions, action.Notes heard) :
    heard (s.history routine actions).world.state =
      heard s.world.state ++ s.results routine actions := by
  induction actions generalizing s with
  | nil => exact (List.append_nil _).symm
  | cons action rest ih =>
      rcases List.forall_mem_cons.mp hActions with
        ⟨hFirst, hRest⟩
      have hEffect := s.perform_effect routine action
      have hStep := hEffect.notes hCommands hFirst
      have hLater := @ih (s.perform routine action).1 hRest
      refine hLater.trans ?_
      rw [hStep, List.append_assoc]
      congr 1
      unfold results
      rw [Steps.exchanges, List.filterMap_cons]
      cases action.result? (s.perform routine action).2 <;>
        rfl

/-
  A group is run twice, and refuses the second time; a run
  of another is dropped.
-/
example :
    let routine (length : Nat) :
        Routine (List CommandResult) :=
      .sleep length false .succeed
    let note (result : CommandResult)
        (heard : List CommandResult) :=
      heard ++ [result]
    let s :=
      (start Registry.empty []).history routine
        [ .create "a",
          .push "a" ⟨"wait", 1⟩ 5,
          .create "b",
          .push "b" ⟨"wait", 2⟩ 5,
          .runThen "a" note none none,
          .runThen "a" note none none,
          .runThen "b" note none (some 2) ]
    s.world.state =
      [.succeeded, .failed .alreadyCompleted] := by
  with_unfolding_all rfl

end Session

end Calls

end CommandScript
