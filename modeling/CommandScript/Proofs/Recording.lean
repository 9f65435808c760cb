import CommandScript.Proofs.Routines

/-
  Recorded runs. A recorded command does what the command
  does, and writes down when it starts, what it does, and
  when it ends. The record shows which commands are run, in
  which order and when, and it grows only as time goes on.

  Key definitions include:
    * `Event`
    * `Recorded`
    * `Routine.recorded`
    * `recording`
    * `Recorded.course`
    * `World.LeadsTo`

  Main statements:
    * `recording_run`
    * `recording_course`
    * `recording_leadsTo`
    * `recording_isCutOff`
-/

namespace CommandScript

------------------------------------------------------------
-- Histories
------------------------------------------------------------

/- What a command does. -/
inductive Deed (κ σ : Type) where
| started (command : κ)
| acted (state : σ)
| noted (remark : Remark)
| ended (command : κ) (result : CommandResult)
deriving DecidableEq, Repr

/- A deed and the moment at which it is done. -/
structure Event (κ σ : Type) where
  moment : Nat
  deed : Deed κ σ
deriving DecidableEq, Repr

/- Whether a command starts or ends with a deed. -/
def Deed.isBoundary {κ σ : Type} : Deed κ σ → Bool
| .started _ | .ended _ _ => true
| .acted _ | .noted _ => false

/- A state, and everything that was done until then. -/
structure Recorded (κ σ : Type) where
  state : σ
  history : List (Event κ σ)
deriving DecidableEq, Repr

namespace Recorded

variable {κ σ : Type}

/- Write down a deed. -/
def add
    (moment : Nat)
    (deed : Deed κ σ)
    (r : Recorded κ σ) : Recorded κ σ :=
  { r with history := r.history ++ [⟨moment, deed⟩] }

/- Change the state and write down what it becomes. -/
def act
    (moment : Nat)
    (change : σ → σ)
    (r : Recorded κ σ) : Recorded κ σ :=
  add moment (.acted (change r.state))
    ⟨change r.state, r.history⟩

/- When commands start and end. -/
def course (r : Recorded κ σ) : List (Event κ σ) :=
  r.history.filter fun event => event.deed.isBoundary

/- A deed that is written down comes last. -/
theorem course_add
    (moment : Nat)
    (deed : Deed κ σ)
    (r : Recorded κ σ) :
    (r.add moment deed).course =
      r.course ++
        if deed.isBoundary then [⟨moment, deed⟩]
        else [] := by
  cases hBoundary : deed.isBoundary <;>
    simp [course, add, hBoundary]

/- A change of the state is no part of the course. -/
theorem course_act
    (moment : Nat)
    (change : σ → σ)
    (r : Recorded κ σ) :
    (r.act moment change).course = r.course := by
  rw [act, course_add]
  simp [course, Deed.isBoundary]

end Recorded

/- A world at the start of a record. -/
def World.unrecorded
    {κ σ : Type}
    (w : World σ) : World (Recorded κ σ) :=
  w.view fun state => ⟨state, []⟩

/- A world without its record. -/
def World.bare
    {κ σ : Type}
    (w : World (Recorded κ σ)) : World σ :=
  w.view Recorded.state

------------------------------------------------------------
-- Recorded Commands
------------------------------------------------------------

/-
  The routine of a command with a record of everything it
  does, up to its end.
-/
def Routine.recorded
    {κ σ : Type}
    (command : κ) : Routine σ → Routine (Recorded κ σ)
| .finish result =>
    .look fun w =>
      .act (.add w.clock (.ended command result))
        (.finish result)
| .look next =>
    .look fun w => recorded command (next w.bare)
| .act change next =>
    .look fun w =>
      .act (.act w.clock change) (recorded command next)
| .note remark next =>
    .look fun w =>
      .note remark
        (.act (.add w.clock (.noted remark))
          (recorded command next))
| .sleep length wakes next =>
    .sleep length wakes (recorded command next)

/- Commands that write down their start and all they do. -/
def recording
    {κ σ : Type}
    (routine : κ → Routine σ)
    (command : κ) : Routine (Recorded κ σ) :=
  .look fun w =>
    .act (.add w.clock (.started command))
      ((routine command).recorded command)

section Faithful

variable {κ σ : Type}

/- A record changes nothing that a routine sees or does. -/
theorem Routine.recorded_run
    (command : κ)
    (routine : Routine σ)
    (plan : Plan)
    (path : List Location)
    (w : World (Recorded κ σ)) :
    let trail :=
      (routine.recorded command).run plan path w
    routine.run plan path w.bare =
      ⟨trail.ending, trail.world.bare, trail.log⟩ := by
  induction routine generalizing w with
  | finish result => rfl
  | look next ih => exact ih w.bare w
  | act change next ih =>
      exact ih (w.alter (.act w.clock change))
  | note remark next ih =>
      have hNext :=
        ih (w.alter (.add w.clock (.noted remark)))
      change Trail.mk _ _ _ = _
      exact
        congrArg
          (fun trail : Trail σ =>
            (⟨trail.ending, trail.world,
              ⟨.remark remark, path⟩ :: trail.log⟩ :
              Trail σ)) hNext
  | sleep length wakes next ih =>
      have hView :=
        w.sleep_view Recorded.state plan length wakes
      cases hSleep :
          (w.sleep plan length wakes).dropped with
      | true =>
          have hBare :
              (w.bare.sleep plan length wakes).dropped =
                true := by
            simp [World.bare, hView, hSleep]
          simp only [recorded]
          rw [run_sleep_of_dropped hSleep,
            run_sleep_of_dropped hBare]
          simp [World.bare, hView]
      | false =>
          have hBare :
              (w.bare.sleep plan length wakes).dropped =
                false := by
            simp [World.bare, hView, hSleep]
          simp only [recorded]
          rw [run_sleep_of_awake hSleep,
            run_sleep_of_awake hBare]
          have hNext :=
            ih (w.sleep plan length wakes).world
          simp only [World.bare] at hNext hView ⊢
          simp [hView, hNext]

/- A record changes nothing that a command sees or does. -/
theorem recording_run
    (routine : κ → Routine σ)
    (command : κ)
    (plan : Plan)
    (path : List Location)
    (w : World (Recorded κ σ)) :
    let trail := (recording routine command).run plan path w
    (routine command).run plan path w.bare =
      ⟨trail.ending, trail.world.bare, trail.log⟩ :=
  (routine command).recorded_run command plan path
    (w.alter (.add w.clock (.started command)))

end Faithful

------------------------------------------------------------
-- The Course of a Command
------------------------------------------------------------

/- What is written down when a command comes to its end. -/
def Ending.closing
    {κ σ : Type}
    (command : κ)
    (moment : Nat) : Ending → List (Event κ σ)
| .finished result => [⟨moment, .ended command result⟩]
| .dropped => []

section Course

variable {κ σ : Type}

/- A routine writes down its end, unless it is dropped. -/
theorem Routine.recorded_course
    (command : κ)
    (routine : Routine σ)
    (plan : Plan)
    (path : List Location)
    (w : World (Recorded κ σ)) :
    let trail :=
      (routine.recorded command).run plan path w
    trail.world.state.course =
      w.state.course ++
        trail.ending.closing command trail.world.clock := by
  induction routine generalizing w with
  | finish result =>
      exact Recorded.course_add _ _ w.state
  | look next ih => exact ih w.bare w
  | act change next ih =>
      have hNext := ih (w.alter (.act w.clock change))
      have hAct :=
        Recorded.course_act w.clock change w.state
      simp only [World.alter, hAct] at hNext
      exact hNext
  | note remark next ih =>
      have hNext :=
        ih (w.alter (.add w.clock (.noted remark)))
      have hAdd :=
        Recorded.course_add w.clock (.noted remark) w.state
      simp only [World.alter, hAdd, Deed.isBoundary,
        Bool.false_eq_true, if_false, List.append_nil]
        at hNext
      exact hNext
  | sleep length wakes next ih =>
      have hState := w.sleep_state plan length wakes
      simp only [recorded]
      cases hSleep :
          (w.sleep plan length wakes).dropped with
      | true =>
          rw [run_sleep_of_dropped hSleep]
          simp [hState, Ending.closing]
      | false =>
          rw [run_sleep_of_awake hSleep]
          have hNext :=
            ih (w.sleep plan length wakes).world
          rw [hState] at hNext
          exact hNext

/- A command writes down its start and its end. -/
theorem recording_course
    (routine : κ → Routine σ)
    (command : κ)
    (plan : Plan)
    (path : List Location)
    (w : World (Recorded κ σ)) :
    let trail := (recording routine command).run plan path w
    trail.world.state.course =
      w.state.course ++ ⟨w.clock, .started command⟩ ::
        trail.ending.closing command trail.world.clock := by
  have hStart :=
    Recorded.course_add w.clock (.started command) w.state
  have hCourse :=
    (routine command).recorded_course command plan path
      (w.alter (.add w.clock (.started command)))
  simp only [World.alter, hStart, Deed.isBoundary, if_true,
    List.append_assoc, List.singleton_append] at hCourse
  exact hCourse

end Course

------------------------------------------------------------
-- The Growth of Histories
------------------------------------------------------------

namespace World

variable {κ σ : Type}

/-
  Time has gone on from one world to another, and what was
  written down since was done in that time.
-/
def LeadsTo (w w' : World (Recorded κ σ)) : Prop :=
  w.clock ≤ w'.clock ∧
    ∃ later,
      w'.state.history = w.state.history ++ later ∧
        ∀ event ∈ later,
          w.clock ≤ event.moment ∧ event.moment ≤ w'.clock

namespace LeadsTo

variable {w w' w'' : World (Recorded κ σ)}

theorem refl (w : World (Recorded κ σ)) : w.LeadsTo w :=
  ⟨Nat.le_refl _, [], by simp, by simp⟩

theorem trans
    (hFirst : w.LeadsTo w')
    (hSecond : w'.LeadsTo w'') :
    w.LeadsTo w'' := by
  rcases hFirst with ⟨hClock, early, hEarly, hEarlyIn⟩
  rcases hSecond with ⟨hClock', late, hLate, hLateIn⟩
  refine
    ⟨Nat.le_trans hClock hClock', early ++ late, ?_, ?_⟩
  · rw [hLate, hEarly, List.append_assoc]
  · intro event hEvent
    rcases List.mem_append.mp hEvent with hEvent | hEvent
    · rcases hEarlyIn event hEvent with ⟨hFrom, hTo⟩
      exact ⟨hFrom, Nat.le_trans hTo hClock'⟩
    · rcases hLateIn event hEvent with ⟨hFrom, hTo⟩
      exact ⟨Nat.le_trans hClock hFrom, hTo⟩

/- A deed that is written down is done now. -/
theorem add
    (w : World (Recorded κ σ))
    (deed : Deed κ σ) :
    w.LeadsTo (w.alter (.add w.clock deed)) :=
  ⟨Nat.le_refl _, [⟨w.clock, deed⟩], rfl, by simp [alter]⟩

/- A change that is written down is made now. -/
theorem act
    (w : World (Recorded κ σ))
    (change : σ → σ) :
    w.LeadsTo (w.alter (.act w.clock change)) :=
  ⟨Nat.le_refl _,
    [⟨w.clock, .acted (change w.state.state)⟩], rfl,
    by simp [alter]⟩

/- Nothing is written down while time goes by. -/
theorem of_state_eq
    (hState : w'.state = w.state)
    (hClock : w.clock ≤ w'.clock) :
    w.LeadsTo w' :=
  ⟨hClock, [], by simp [hState], by simp⟩

end LeadsTo

/-
  A world in which a run is cut off: from it, once the drop
  has gone by, the run that is kept leads on to its end.
-/
def IsCutOff
    (dropAt : Option Nat)
    (start cut full : World (Recorded κ σ)) : Prop :=
  ∃ (drop : Nat) (resumed : World (Recorded κ σ)),
    dropAt = some drop ∧
      resumed.state = cut.state ∧
        resumed.LeadsTo full ∧
          (start.clock ≤ drop →
            cut.clock = drop ∧ drop < resumed.clock)

namespace IsCutOff

variable {dropAt : Option Nat}
variable {w cut full w' : World (Recorded κ σ)}

/- A run that is cut off later is cut off all the same. -/
theorem of_later
    (hCut : IsCutOff dropAt w' cut full)
    (hInTime :
      ∀ drop, dropAt = some drop → w.clock ≤ drop →
        w'.clock ≤ drop) :
    IsCutOff dropAt w cut full := by
  rcases hCut with
    ⟨drop, resumed, hDrop, hState, hLeads, hClock⟩
  exact
    ⟨drop, resumed, hDrop, hState, hLeads,
      fun hStart => hClock (hInTime drop hDrop hStart)⟩

/- The run that is kept may go on for longer. -/
theorem trans
    (hCut : IsCutOff dropAt w cut full)
    (hLeads : full.LeadsTo w') :
    IsCutOff dropAt w cut w' := by
  rcases hCut with
    ⟨drop, resumed, hDrop, hState, hFull, hClock⟩
  exact
    ⟨drop, resumed, hDrop, hState, hFull.trans hLeads,
      hClock⟩

end IsCutOff

end World

section Growth

variable {κ σ : Type}

/- A recorded routine only adds to the history. -/
theorem Routine.recorded_leadsTo
    (command : κ)
    (routine : Routine σ)
    (plan : Plan)
    (path : List Location)
    (w : World (Recorded κ σ)) :
    w.LeadsTo
      ((routine.recorded command).run plan path
        w).world := by
  induction routine generalizing w with
  | finish result => exact .add w _
  | look next ih => exact ih w.bare w
  | act change next ih =>
      exact
        (World.LeadsTo.act w change).trans
          (ih (w.alter (.act w.clock change)))
  | note remark next ih =>
      exact
        (World.LeadsTo.add w (.noted remark)).trans
          (ih (w.alter (.add w.clock (.noted remark))))
  | sleep length wakes next ih =>
      have hSleep :
          w.LeadsTo (w.sleep plan length wakes).world :=
        .of_state_eq (w.sleep_state plan length wakes)
          (w.clock_le_sleep plan length wakes)
      simp only [recorded]
      cases hDropped :
          (w.sleep plan length wakes).dropped with
      | true =>
          rw [run_sleep_of_dropped hDropped]
          exact hSleep
      | false =>
          rw [run_sleep_of_awake hDropped]
          exact hSleep.trans (ih _)

/- A recorded command only adds to the history. -/
theorem recording_leadsTo
    (routine : κ → Routine σ)
    (command : κ)
    (plan : Plan)
    (path : List Location)
    (w : World (Recorded κ σ)) :
    w.LeadsTo
      ((recording routine command).run plan path
        w).world :=
  (World.LeadsTo.add w (.started command)).trans
    ((routine command).recorded_leadsTo command plan path
      (w.alter (.add w.clock (.started command))))

/- A routine that is dropped is cut off. -/
theorem Routine.recorded_isCutOff
    (command : κ)
    (routine : Routine σ)
    (plan : Plan)
    (path : List Location)
    (w : World (Recorded κ σ))
    (hDropped :
      ((routine.recorded command).run plan path
        w).ending = .dropped) :
    World.IsCutOff plan.dropAt w
      ((routine.recorded command).run plan path w).world
      ((routine.recorded command).run plan.kept path
        w).world := by
  induction routine generalizing w with
  | finish result => cases hDropped
  | look next ih => exact ih w.bare w hDropped
  | act change next ih =>
      exact ih (w.alter (.act w.clock change)) hDropped
  | note remark next ih =>
      exact
        ih (w.alter (.add w.clock (.noted remark)))
          hDropped
  | sleep length wakes next ih =>
      have hCut := w.sleep_cut plan length wakes
      have hState := w.sleep_state plan length wakes
      have hKeptState :=
        w.sleep_state plan.kept length wakes
      generalize hSleep :
        w.sleep plan length wakes = waking at hCut hState
      generalize hKept :
        w.sleep plan.kept length wakes = full
        at hCut hKeptState
      cases hCut with
      | whole hAwake hInTime =>
          simp only [recorded, run, hSleep, hKept, hAwake,
            Bool.false_eq_true, if_false] at hDropped ⊢
          exact (ih waking.world hDropped).of_later hInTime
      | short hDrop hShort hAwake hClock =>
          simp only [recorded, run, hSleep, hKept, hShort,
            hAwake, Bool.false_eq_true, if_false, if_true]
          exact
            ⟨_, full.world, hDrop,
              hKeptState.trans hState.symm,
              next.recorded_leadsTo command plan.kept path
                full.world,
              hClock⟩

/- A command that is dropped is cut off. -/
theorem recording_isCutOff
    (routine : κ → Routine σ)
    (command : κ)
    (plan : Plan)
    (path : List Location)
    (w : World (Recorded κ σ))
    (hDropped :
      ((recording routine command).run plan path
        w).ending = .dropped) :
    World.IsCutOff plan.dropAt w
      ((recording routine command).run plan path w).world
      ((recording routine command).run plan.kept path
        w).world :=
  (routine command).recorded_isCutOff command plan path
    (w.alter (.add w.clock (.started command))) hDropped

end Growth

end CommandScript
