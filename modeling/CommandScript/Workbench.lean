import CommandScript.Builtin
import CommandScript.Steps

/-
  A workbench: one command with the world and the sink that
  it is connected to. The command is configured in place, as
  often as one likes, and is run in between.

  Key definitions include:
    * `Course`
    * `Builtin.reconfigure`
    * `Workbench`
    * `Workbench.Task`
    * `Workbench.Reply`
    * `Workbench.perform`
    * `Workbench.history`
-/

namespace CommandScript

------------------------------------------------------------
-- Configuration in Place
------------------------------------------------------------

/-
  A course of checks and assignments. What it has assigned
  by the time it reports an error or is aborted is kept.
-/
abbrev Course (ε σ α : Type) :=
  ExceptT (Halt ε) (StateM σ) α

/- A check, which assigns nothing. -/
def Course.check
    {ε σ α : Type}
    (attempt : Attempt ε α) : Course ε σ α :=
  ExceptT.mk (pure attempt)

namespace Builtin

/- Assign the message of a `print`. -/
def assignMessage
    (params : Params) :
    Course ConfigError String Unit := do
  .check (.ofExcept (params.denyUnknown ["message"]))
  let message ←
    .check (.ofExcept (params.require "message"))
  set message

/- Assign the duration of a `delay`. -/
def assignDuration
    (params : Params) :
    Course ConfigError Duration Unit := do
  .check
    (.ofExcept (params.denyUnknown ["seconds", "duration"]))
  let seconds ← .check (.ofExcept (readSeconds params))
  let duration ← .check (params.duration "duration")
  let length ←
    match seconds, duration with
    | some length, none => pure length
    | none, some length => pure length
    | some _, some _ =>
        .check
          (.reject
            (.invalidValue "duration"
              ((params.get? "duration").getD "")
              .combinedWithSeconds))
    | none, none =>
        .check (.reject (.missingParameter "seconds"))
  set length

/- Assign the message of a `fail`, which may be none. -/
def assignFailure
    (params : Params) :
    Course ConfigError (Option String) Unit := do
  .check (.ofExcept (params.denyUnknown ["message"]))
  set (params.get? "message")

/-
  Configure a command in place: what it answers, and what
  the command is then. A `clear` has no configuration of its
  own. What stands for one is the check that a registry
  makes before it constructs a plain command, which refuses
  all parameters.
-/
def reconfigure
    (params : Params) :
    Builtin → Attempt ConfigError Unit × Builtin
| .print message =>
    (assignMessage params message).map id .print
| .delay duration =>
    (assignDuration params duration).map id .delay
| .clear => (.ofExcept params.denyAll, .clear)
| .fail message =>
    (assignFailure params message).map id .fail

end Builtin

------------------------------------------------------------
-- Workbenches
------------------------------------------------------------

/- A command, what it is connected to, and a log. -/
structure Workbench where
  command : Builtin
  world : World Recorder
  log : List Entry

namespace Workbench

/- What can be done at a workbench. -/
inductive Task where
| configure (params : Params)
| run
| cancel
| close

/- What a task is answered with. -/
inductive Reply where
| configured (result : Attempt ConfigError Unit)
| ran (ending : Ending)
| done

/- A workbench at which nothing has happened. -/
def fresh (command : Builtin) : Workbench where
  command := command
  world := World.initial Recorder.empty
  log := []

/- Perform a task. -/
def perform (b : Workbench) : Task → Workbench × Reply
| .configure params =>
    let p := b.command.reconfigure params
    ({ b with command := p.2 }, .configured p.1)
| .run =>
    let trail :=
      b.command.routine.run Plan.undisturbed [] b.world
    ( { b with
        world := trail.world
        log := b.log ++ trail.log },
      .ran trail.ending )
| .cancel =>
    ( { b with
        world := b.world.cancel
        log := b.log ++ b.world.cancelLog },
      .done )
| .close =>
    ({ b with world := b.world.alter Recorder.close }, .done)

/- Perform tasks one after another. -/
def history
    (b : Workbench)
    (tasks : List Task) : Workbench :=
  Steps.after perform b tasks

end Workbench

end CommandScript
