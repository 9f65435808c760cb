import CommandScript.Registry
import CommandScript.Routine
import CommandScript.Sink

/-
  The commands that every script can use: `print`, `delay`,
  `clear` and `fail`.

  Key definitions include:
    * `Builtin`
    * `Builtin.configure`
    * `Builtin.routine`
    * `Builtin.registry`

  Main statements:
    * `Builtin.construct_eq_some_iff`
-/

namespace CommandScript

/- A command as it has been configured. -/
inductive Builtin where
| print (message : String)
| delay (duration : Duration)
| clear
| fail (message : Option String)
deriving DecidableEq, Repr

namespace Builtin

------------------------------------------------------------
-- Configuration
------------------------------------------------------------

/- The kind of a command. -/
def kind : Builtin → String
| .print _ => "print"
| .delay _ => "delay"
| .clear => "clear"
| .fail _ => "fail"

/- The commands before they are configured. -/
def unconfigured : List Builtin :=
  [.print "", .delay Duration.zero, .clear, .fail none]

/- Configure a `print`: its message is required. -/
def configurePrint
    (params : Params) : Except ConfigError Builtin := do
  params.denyUnknown ["message"]
  let message ← params.require "message"
  return .print message

/- Read the duration under `seconds`, a plain number. -/
def readSeconds
    (params : Params) :
    Except ConfigError (Option Duration) := do
  match ← params.parse Reading.number "seconds" with
  | none => return none
  | some value =>
      match Duration.ofSeconds value with
      | .ok duration => return some duration
      | .error cause =>
          .error
            (.invalidValue "seconds"
              ((params.get? "seconds").getD "")
              (.seconds cause))

/-
  Configure a `delay`: it takes either a number of seconds
  or a duration, and needs one of them.
-/
def configureDelay
    (params : Params) : Attempt ConfigError Builtin := do
  Attempt.ofExcept
    (params.denyUnknown ["seconds", "duration"])
  let seconds ← Attempt.ofExcept (readSeconds params)
  let duration ← params.duration "duration"
  match seconds, duration with
  | some length, none => return .delay length
  | none, some length => return .delay length
  | some _, some _ =>
      Attempt.reject
        (.invalidValue "duration"
          ((params.get? "duration").getD "")
          .combinedWithSeconds)
  | none, none =>
      Attempt.reject (.missingParameter "seconds")

/- Configure a `fail`: its message may be missing. -/
def configureFail
    (params : Params) : Except ConfigError Builtin := do
  params.denyUnknown ["message"]
  return .fail (params.get? "message")

/-
  Configure a command anew. The new configuration depends on
  the parameters alone, not on an earlier one.
-/
def configure : Builtin → Constructor Builtin
| .print _ =>
    fun params => Attempt.ofExcept (configurePrint params)
| .delay _ => configureDelay
| .clear => Constructor.plain .clear
| .fail _ =>
    fun params => Attempt.ofExcept (configureFail params)

/- The registry of these commands. -/
def registry : Registry Builtin :=
  unconfigured.foldl
    (fun r command =>
      r.registerConfigurable command.kind command.configure)
    Registry.empty

/- A command is made as one of its kind is configured. -/
theorem construct_kind
    (params : Params)
    (command : Builtin) :
    registry.construct command.kind params =
      some (command.configure params) := by
  cases command <;> rfl

/- What is made is made of a command that is registered. -/
theorem exists_of_construct
    {kind : String}
    {params : Params}
    {result : Attempt ConfigError Builtin}
    {commands : List Builtin}
    {r : Registry Builtin}
    (hMade :
      (commands.foldl
          (fun r command =>
            r.registerConfigurable command.kind
              command.configure)
          r).construct kind params =
        some result) :
    r.construct kind params = some result ∨
      ∃ command : Builtin,
        command.kind = kind ∧
          command.configure params = result := by
  induction commands generalizing r with
  | nil => exact .inl hMade
  | cons command rest ih =>
      rcases ih hMade with hFirst | hRest
      · rw [Registry.construct_registerConfigurable]
          at hFirst
        split at hFirst
        · rename_i hKind
          exact
            .inr
              ⟨command, hKind.symm, Option.some.inj hFirst⟩
        · exact .inl hFirst
      · exact .inr hRest

/- What is made of a kind is configured as one of it. -/
theorem construct_eq_some_iff
    {kind : String}
    {params : Params}
    {result : Attempt ConfigError Builtin} :
    registry.construct kind params = some result ↔
      ∃ command : Builtin,
        command.kind = kind ∧
          command.configure params = result := by
  constructor
  · intro hMade
    exact (exists_of_construct hMade).resolve_left nofun
  · rintro ⟨command, rfl, rfl⟩
    exact construct_kind params command

------------------------------------------------------------
-- Running
------------------------------------------------------------

variable {σ : Type}

/- Take the state that a sink operation leads to. -/
def ofSink :
    Except SinkError σ → Routine σ
| .ok state => .act (fun _ => state) .succeed
| .error cause => .fail (.failed cause.message)

/- What a `fail` reports that has no message. -/
def defaultFailure : String := "command failed"

/-
  What a command does. All but `fail` end at once when
  cancellation has been requested; a `delay` is woken by it.
-/
def routine [Sink σ] : Builtin → Routine σ
| .print message =>
    .unlessCancelled
      (.look fun w =>
        ofSink (Sink.writeLine w.clock message w.state))
| .delay duration =>
    .unlessCancelled
      (.note (.waiting duration.milliseconds)
        (.sleep duration.nanoseconds true
          (.unlessCancelled .succeed)))
| .clear =>
    .unlessCancelled
      (.look fun w => ofSink (Sink.clear w.state))
| .fail message =>
    .fail (.failed (message.getD defaultFailure))

end Builtin

end CommandScript
