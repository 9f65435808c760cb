import CommandScript.Workbench
import CommandScript.Proofs.AfterCancellation
import CommandScript.Proofs.DelayDecisions

/-
  The life of one command. However often it has been
  configured and run, a configuration replaces all that it
  was told before or nothing of it, and a run does what the
  last good configuration says, unless cancellation has been
  requested or the sink has been closed.

  Key definitions include:
    * `Attempt.inPlaceOf`
    * `Builtin.Reads`
    * `Upshot`
    * `Builtin.upshot`
    * `Builtin.lastConfigured`
    * `Workbench.following`

  Main statements:
    * `Builtin.reconfigure_eq`
    * `Builtin.reads_of_configure`
    * `Builtin.run_eq_trail`
    * `Workbench.command_history`
    * `Workbench.perform_of_history`
-/

namespace CommandScript

------------------------------------------------------------
-- Configuration in Place
------------------------------------------------------------

/-
  What has been made takes the place of what was there, but
  an attempt that makes nothing leaves it.
-/
def Attempt.inPlaceOf
    {ε α : Type}
    (before : α) : Attempt ε α → Attempt ε Unit × α
| .ok after => (.ok (), after)
| .error halt => (.error halt, before)

namespace Builtin

section Configuration

variable {params : Params}
variable {command made : Builtin}

/- A `print` is given its message last. -/
theorem reconfigure_print
    (params : Params)
    (message : String) :
    (print message).reconfigure params =
      (Attempt.ofExcept (configurePrint params)).inPlaceOf
        (.print message) := by
  unfold reconfigure assignMessage configurePrint
  cases params.denyUnknown ["message"] with
  | error cause => rfl
  | ok _ =>
      cases params.require "message" with
      | error cause => rfl
      | ok next => rfl

/- A `delay` is given its duration last. -/
theorem reconfigure_delay
    (params : Params)
    (duration : Duration) :
    (delay duration).reconfigure params =
      (configureDelay params).inPlaceOf
        (.delay duration) := by
  unfold reconfigure assignDuration configureDelay
  cases params.denyUnknown ["seconds", "duration"] with
  | error cause => rfl
  | ok _ =>
      cases readSeconds params with
      | error cause => rfl
      | ok seconds =>
          cases params.duration "duration" with
          | error halt => rfl
          -- Nothing is assigned unless just one is given.
          | ok length =>
              cases seconds <;> cases length <;> rfl

/- A `fail` is given its message last. -/
theorem reconfigure_fail
    (params : Params)
    (message : Option String) :
    (fail message).reconfigure params =
      (Attempt.ofExcept (configureFail params)).inPlaceOf
        (.fail message) := by
  unfold reconfigure assignFailure configureFail
  cases params.denyUnknown ["message"] with
  | error cause => rfl
  | ok _ => rfl

/- A configuration in place assigns all or nothing. -/
theorem reconfigure_eq
    (params : Params)
    (command : Builtin) :
    command.reconfigure params =
      (command.configure params).inPlaceOf command := by
  cases command with
  | print message => exact reconfigure_print params message
  | delay length => exact reconfigure_delay params length
  | fail message => exact reconfigure_fail params message
  | clear =>
      simp only [reconfigure, configure, Constructor.plain]
      cases params.denyAll <;> rfl

/-
  The settings of a command are what parameters say, and
  these say nothing else.
-/
inductive Reads (params : Params) : Builtin → Prop where
| print
    {message : String}
    (hKnown : ∀ key, params.Has key → key = "message")
    (hMessage : params.get? "message" = some message) :
    Reads params (.print message)
| delay
    {length : Duration}
    (hDecides : Decides params (.ok (.delay length))) :
    Reads params (.delay length)
| clear
    (hNone : ∀ key, ¬ params.Has key) :
    Reads params .clear
| fail
    (hKnown : ∀ key, params.Has key → key = "message") :
    Reads params (.fail (params.get? "message"))

/- Only a message is taken where no other key is. -/
theorem eq_of_denyUnknown
    (hKnown : params.denyUnknown ["message"] = .ok ())
    (key : String)
    (hHas : params.Has key) :
    key = "message" :=
  List.mem_singleton.mp
    (Params.denyUnknown_eq_ok_iff.mp hKnown key hHas)

/- A command is configured to what its parameters say. -/
theorem reads_of_configure
    (hMade : command.configure params = .ok made) :
    made.Reads params := by
  cases command with
  | print message =>
      have hPrint := Attempt.ofExcept_eq_ok_iff.mp hMade
      unfold configurePrint at hPrint
      rcases Attempt.exists_of_bind_eq_ok hPrint with
        ⟨_, hKnown, hPrint⟩
      rcases Attempt.exists_of_bind_eq_ok hPrint with
        ⟨next, hMessage, hPrint⟩
      cases hPrint
      refine .print (eq_of_denyUnknown hKnown) ?_
      unfold Params.require at hMessage
      split at hMessage
      · cases hMessage
        assumption
      · cases hMessage
  | delay duration =>
      have hKind := kind_of_configureDelay hMade
      cases made with
      | delay length =>
          exact .delay (configureDelay_eq_iff.mp hMade)
      | print _ | clear | fail _ => simp [kind] at hKind
  | clear =>
      rcases eq_of_plain hMade with rfl
      refine .clear (Params.denyAll_eq_ok_iff.mp ?_)
      have hPlain := Attempt.ofExcept_eq_ok_iff.mp hMade
      cases hDeny : params.denyAll with
      | error cause =>
          rw [hDeny] at hPlain
          cases hPlain
      | ok _ => rfl
  | fail message =>
      have hFail := Attempt.ofExcept_eq_ok_iff.mp hMade
      unfold configureFail at hFail
      rcases Attempt.exists_of_bind_eq_ok hFail with
        ⟨_, hKnown, hFail⟩
      cases hFail
      exact .fail (eq_of_denyUnknown hKnown)

end Configuration

end Builtin

------------------------------------------------------------
-- Single Runs
------------------------------------------------------------

/- What a run of a command comes to. -/
structure Upshot where
  result : CommandResult
  call? : Option SinkCall
  elapsed : Nat
  log : List Entry

namespace Upshot

/- Come to nothing but an error, at once. -/
def refuse (cause : CommandError) : Upshot :=
  ⟨.failed cause, none, 0, []⟩

/- Call the sink, which takes the call if it is open. -/
def call
    (closed : Bool)
    (call : SinkCall) : Upshot :=
  if closed then refuse (.failed "output closed")
  else ⟨.succeeded, some call, 0, []⟩

/- Wait for some time. -/
def wait (length : Duration) : Upshot :=
  ⟨.succeeded, none, length.nanoseconds,
    [⟨.remark (.waiting length.milliseconds), []⟩]⟩

end Upshot

/-
  What a run of a command comes to, by whether cancellation
  has been requested and whether the sink has been closed.
-/
def Builtin.upshot
    (cancelled closed : Bool) : Builtin → Upshot
| .print message =>
    if cancelled then .refuse .cancelled
    else .call closed (.write message)
| .delay length =>
    if cancelled then .refuse .cancelled else .wait length
| .clear =>
    if cancelled then .refuse .cancelled
    else .call closed .clear
| .fail message =>
    .refuse (.failed (message.getD "command failed"))

/- The world after a run that comes to something. -/
def World.following
    (w : World Recorder)
    (upshot : Upshot) : World Recorder :=
  w.received upshot.elapsed upshot.call?.toList

/- The trail of a run that comes to something. -/
def Upshot.trail
    (upshot : Upshot)
    (w : World Recorder) : Trail Recorder :=
  ⟨.finished upshot.result, w.following upshot, upshot.log⟩

namespace Builtin

/- A run that is left alone comes to what it should. -/
theorem run_eq_trail
    (command : Builtin)
    (w : World Recorder) :
    command.routine.run Plan.undisturbed [] w =
      (command.upshot w.cancelled w.state.closed).trail w :=
    by
  rcases w with ⟨clock, cancelled, state⟩
  cases command with
  | print message
  | clear =>
      rcases state with ⟨calls, lines, closed⟩
      cases cancelled <;> cases closed <;> rfl
  | fail message => rfl
  | delay length =>
      cases cancelled with
      | true => rfl
      | false =>
          have hSleep :=
            World.sleep_of_spared
              (w := ⟨clock, false, state⟩) rfl
              (Plan.undisturbed_spares
                (clock + length.nanoseconds))
          simp only [routine, Routine.unlessCancelled,
            Routine.run, Bool.false_eq_true, if_false,
            hSleep]
          rfl

end Builtin

------------------------------------------------------------
-- Tasks
------------------------------------------------------------

/-
  The command that a task configures one of a kind to: the
  one that the registry makes of the same parameters.
-/
def Workbench.Task.configured?
    (kind : String) : Workbench.Task → Option Builtin
| .configure params =>
    match Builtin.registry.construct kind params with
    | some (.ok command) => some command
    | _ => none
| _ => none

/- A task requests cancellation. -/
def Workbench.Task.cancels : Workbench.Task → Bool
| .cancel => true
| _ => false

/- A task closes the sink. -/
def Workbench.Task.closes : Workbench.Task → Bool
| .close => true
| _ => false

/-
  A command as tasks have configured it last, or as it was
  at first.
-/
def Builtin.lastConfigured
    (start : Builtin)
    (tasks : List Workbench.Task) : Builtin :=
  (tasks.filterMap
      (Workbench.Task.configured? start.kind)
    ).getLast?.getD start

namespace Workbench

section Steps

variable (b : Workbench)

/- The workbench after a run that comes to something. -/
def following
    (upshot : Upshot) : Workbench :=
  { b with
    world := b.world.following upshot
    log := b.log ++ upshot.log }

/- A run comes to what the command and the world say. -/
theorem perform_run :
    let upshot :=
      b.command.upshot b.world.cancelled
        b.world.state.closed
    b.perform .run =
      ( b.following upshot,
        .ran (.finished upshot.result) ) := by
  intro upshot
  unfold perform
  simp only [Builtin.run_eq_trail]
  rfl

/- A configuration makes a command or changes nothing. -/
theorem perform_configure
    (params : Params) :
    b.perform (.configure params) =
      match b.command.configure params with
      | .ok made =>
          ({ b with command := made }, .configured (.ok ()))
      | .error halt => (b, .configured (.error halt)) := by
  unfold perform
  simp only [Builtin.reconfigure_eq]
  cases b.command.configure params <;> rfl

/- A task configures the command or leaves it. -/
theorem command_perform
    (task : Task) :
    (b.perform task).1.command =
      (task.configured? b.command.kind).getD b.command := by
  cases task with
  | configure params =>
      rw [perform_configure]
      simp only [Task.configured?, Builtin.construct_kind]
      cases b.command.configure params <;> rfl
  | run | cancel | close => rfl

/- No task makes a command of another kind. -/
theorem kind_perform
    (task : Task) :
    (b.perform task).1.command.kind = b.command.kind := by
  cases task with
  | configure params =>
      rw [perform_configure]
      cases hMade : b.command.configure params with
      | error halt => rfl
      | ok made => exact Builtin.kind_of_configure hMade
  | run | cancel | close => rfl

/- Cancellation is requested by a task that does so. -/
theorem cancelled_perform
    (task : Task) :
    (b.perform task).1.world.cancelled =
      (b.world.cancelled || task.cancels) := by
  cases task with
  | configure params => exact (Bool.or_false _).symm
  | run =>
      rw [perform_run]
      exact (Bool.or_false _).symm
  | cancel => exact (Bool.or_true _).symm
  | close => exact (Bool.or_false _).symm

/- The sink is closed by a task that does so. -/
theorem closed_perform
    (task : Task) :
    (b.perform task).1.world.state.closed =
      (b.world.state.closed || task.closes) := by
  cases task with
  | configure params => exact (Bool.or_false _).symm
  | run =>
      rw [perform_run]
      exact
        (b.world.received_closed _ _).trans
          (Bool.or_false _).symm
  | cancel => exact (Bool.or_false _).symm
  | close => exact (Bool.or_true _).symm

end Steps

------------------------------------------------------------
-- Histories
------------------------------------------------------------

section Histories

variable {b : Workbench}

/- The command is of the same kind for ever. -/
theorem kind_history
    (tasks : List Task) :
    (b.history tasks).command.kind = b.command.kind := by
  refine
    Steps.after_keeps
      (P := fun b' : Workbench =>
        b'.command.kind = b.command.kind)
      ?_ rfl
  intro task _ b' hKind
  exact (b'.kind_perform task).trans hKind

/- The command is the one that was configured last. -/
theorem command_history
    (tasks : List Task) :
    (b.history tasks).command =
      b.command.lastConfigured tasks := by
  induction tasks generalizing b with
  | nil => rfl
  | cons task rest ih =>
      -- What a task configures depends on the kind alone.
      have hLater := @ih (b.perform task).1
      unfold Builtin.lastConfigured at hLater ⊢
      rw [kind_perform, command_perform] at hLater
      refine hLater.trans ?_
      cases hMade : task.configured? b.command.kind with
      | none =>
          rw [List.filterMap_cons_none hMade]
          rfl
      | some made =>
          rw [List.filterMap_cons_some hMade,
            List.getLast?_cons]
          rfl

end Histories

/-
  After all that has happened to a command, a configuration
  makes what the registry would make of the same parameters,
  or leaves everything as it is, and a run comes to what the
  last good configuration says, unless cancellation has been
  requested or the sink has been closed.
-/
theorem perform_of_history
    (start : Builtin)
    (tasks : List Task) :
    let b := (fresh start).history tasks
    let command := start.lastConfigured tasks
    let upshot :=
      command.upshot (tasks.any Task.cancels)
        (tasks.any Task.closes)
    b.command = command ∧
    (∀ params, ∃ result,
      Builtin.registry.construct start.kind params =
          some result ∧
        match result with
        | .ok made =>
            made.Reads params ∧
              b.perform (.configure params) =
                ( { b with command := made },
                  .configured (.ok ()) )
        | .error halt =>
            b.perform (.configure params) =
              (b, .configured (.error halt))) ∧
    b.perform .run =
      ( b.following upshot,
        .ran (.finished upshot.result) ) := by
  intro b command upshot
  have hCommand : b.command = command :=
    command_history tasks
  refine ⟨hCommand, ?_, ?_⟩
  · intro params
    have hKind : b.command.kind = start.kind :=
      kind_history tasks
    refine ⟨b.command.configure params, ?_, ?_⟩
    · rw [← hKind]
      exact Builtin.construct_kind params b.command
    · rw [perform_configure]
      cases hMade : b.command.configure params with
      | error halt => rfl
      | ok made =>
          exact ⟨Builtin.reads_of_configure hMade, rfl⟩
  · have hCancelled :
        b.world.cancelled = tasks.any Task.cancels :=
      Steps.flag_after (fun b => b.world.cancelled)
        Task.cancels cancelled_perform (fresh start) tasks
    have hClosed :
        b.world.state.closed = tasks.any Task.closes :=
      Steps.flag_after (fun b => b.world.state.closed)
        Task.closes closed_perform (fresh start) tasks
    rw [perform_run, hCommand, hCancelled, hClosed]

/- A `fail` forgets a message that is not given again. -/
example :
    let given : Params := .alone "message" "lost"
    (fresh (.fail none)).history
        [.configure given, .run, .configure .empty] =
      fresh (.fail none) :=
  rfl

end Workbench

end CommandScript
